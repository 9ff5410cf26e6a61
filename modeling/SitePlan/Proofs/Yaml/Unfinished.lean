/-
# Texts with characters that no text may hold

A text with such a character is read up to the piece that the character is in. The tokens
before it never include the end of the text, which is read only where nothing is left, and
the grammar takes a document for complete only where that token is left. So no document of
such a text is complete.

Key definitions: `Yaml.Lexer.Unfinished`, `Yaml.Reader.Unended`.
Key theorems: `Yaml.Lexer.streamEnd_not_mem_run`, `Yaml.Reader.readsUnended`,
`Yaml.complete_ofTokens_eq_false`.
-/
import SitePlan.Proofs.Yaml.LineEnds.Lexer
import SitePlan.Yaml.Event.Grammar

namespace SitePlan
namespace Yaml

namespace Lexer

/-- The end of the text has not been read. -/
structure Unfinished (s : Lexer) : Prop where
  finished_eq : s.finished = false
  not_mem : Token.streamEnd ∉ s.read

/-- Every result is an unfinished lexer. -/
def StaysUnfinished (x : Option Lexer) : Prop := ∀ t, x = some t → t.Unfinished

variable {s : Lexer}

theorem StaysUnfinished.bind {α : Type} {x : Option α} {f : α → Option Lexer}
    (h : ∀ a, x = some a → StaysUnfinished (f a)) : StaysUnfinished (x.bind f) := by
  intro t ht
  obtain ⟨a, ha, hf⟩ := Option.bind_eq_some_iff.mp ht
  exact h a ha t hf

theorem StaysUnfinished.ite {p : Prop} [Decidable p] {x y : Option Lexer}
    (hx : StaysUnfinished x) (hy : StaysUnfinished y) : StaysUnfinished (if p then x else y) := by
  split
  · exact hx
  · exact hy

theorem staysUnfinished_none : StaysUnfinished none := by
  rintro t ⟨⟩

/-- Only what has been read and whether that is all matters. -/
theorem Unfinished.stays (h : s.Unfinished) {t : Lexer} (hread : t.read = s.read)
    (hfinished : t.finished = s.finished) : StaysUnfinished (some t) := by
  rintro _ ⟨⟩
  exact ⟨hfinished.trans h.finished_eq, hread ▸ h.not_mem⟩

namespace Unfinished

theorem push (h : s.Unfinished) {token : Token} (htoken : token ≠ .streamEnd) :
    (s.push token).Unfinished :=
  ⟨h.finished_eq, List.not_mem_cons_of_ne_of_not_mem htoken.symm h.not_mem⟩

theorem insert (h : s.Unfinished) (place : Nat) {token : Token} (htoken : token ≠ .streamEnd) :
    (s.insert place token).Unfinished := by
  refine ⟨h.finished_eq, ?_⟩
  unfold Lexer.insert
  rw [List.mem_append, List.mem_cons, not_or, not_or]
  exact ⟨fun hmem => h.not_mem (List.mem_of_mem_take hmem), htoken.symm,
    fun hmem => h.not_mem (List.mem_of_mem_drop hmem)⟩

theorem closeBlocks (h : s.Unfinished) (limit : Nat) : (s.closeBlocks limit).Unfinished := by
  unfold Lexer.closeBlocks
  split
  · exact h
  · refine ⟨h.finished_eq, ?_⟩
    rw [List.mem_append, not_or]
    exact ⟨fun hmem => absurd (List.eq_of_mem_replicate hmem) (by decide), h.not_mem⟩

theorem openBlock (h : s.Unfinished) (column place : Nat) {token : Token}
    (htoken : token ≠ .streamEnd) : (s.openBlock column place token).Unfinished := by
  unfold Lexer.openBlock
  split
  · have hopen : Unfinished { s with margins := (column + 1) :: s.margins } :=
      ⟨h.finished_eq, h.not_mem⟩
    exact hopen.insert place htoken
  · exact h

theorem removeKey (h : s.Unfinished) : StaysUnfinished s.removeKey := by
  unfold Lexer.removeKey
  split
  · exact staysUnfinished_none
  · exact h.stays rfl rfl

theorem saveKey (h : s.Unfinished) : StaysUnfinished s.saveKey := by
  unfold Lexer.saveKey
  split
  · intro t ht
    obtain ⟨u, hu, rfl⟩ := Option.map_eq_some_iff.mp ht
    have hu := h.removeKey u hu
    exact ⟨hu.finished_eq, hu.not_mem⟩
  · exact h.stays rfl rfl

theorem dropStale (h : s.Unfinished) : StaysUnfinished s.dropStale :=
  .bind fun _ _ => .bind fun _ _ => h.stays rfl rfl

/-! ### Reading one token -/

theorem readDocumentMark (h : s.Unfinished) {take : Cursor → Option (Token × Cursor)}
    (htake : ∀ c p, take c = some p → p.1 ≠ .streamEnd) :
    StaysUnfinished (s.readDocumentMark take) :=
  .bind fun t ht => .bind fun p hp => by
    have hpushed := ((h.closeBlocks 0).removeKey t ht).push (htake _ p hp)
    exact hpushed.stays rfl rfl

theorem readContent (h : s.Unfinished) {take : Cursor → Option (Token × Cursor)}
    (htake : ∀ c p, take c = some p → p.1 ≠ .streamEnd) : StaysUnfinished (s.readContent take) :=
  .bind fun t ht => .bind fun p hp => by
    have hpushed := (h.saveKey t ht).push (htake _ p hp)
    exact hpushed.stays rfl rfl

theorem readPlain (h : s.Unfinished) : StaysUnfinished s.readPlain :=
  .bind fun t ht => .bind fun p _ => by
    have hpushed := (h.saveKey t ht).push (show Token.scalar p.1 .plain ≠ .streamEnd by simp)
    exact hpushed.stays rfl rfl

theorem readBlock (h : s.Unfinished) (isLiteral : Bool) : StaysUnfinished (s.readBlock isLiteral) :=
  .bind fun t ht => .bind fun p _ => by
    have hpushed := (h.removeKey t ht).push
      (show Token.scalar p.1 (if isLiteral then .literal else .folded) ≠ .streamEnd by simp)
    exact hpushed.stays rfl rfl

theorem openFlow (h : s.Unfinished) {token : Token} (htoken : token ≠ .streamEnd) :
    StaysUnfinished (s.openFlow token) :=
  .bind fun t ht => by
    have hpushed := (h.saveKey t ht).push htoken
    exact hpushed.stays rfl rfl

theorem closeFlow (h : s.Unfinished) {token : Token} (htoken : token ≠ .streamEnd) :
    StaysUnfinished (s.closeFlow token) :=
  .bind fun t ht => by
    have hpushed := (h.removeKey t ht).push htoken
    dsimp only
    split <;> exact hpushed.stays rfl rfl

theorem readComma (h : s.Unfinished) : StaysUnfinished s.readComma :=
  .bind fun t ht => by
    have hpushed := (h.removeKey t ht).push (show Token.flowEntry ≠ .streamEnd by simp)
    exact hpushed.stays rfl rfl

theorem readEntryMark (h : s.Unfinished) {token opening : Token} (allowed : Bool)
    (htoken : token ≠ .streamEnd) (hopening : opening ≠ .streamEnd) :
    StaysUnfinished (s.readEntryMark token opening allowed) := by
  have hentry : ∀ {t : Lexer}, t.Unfinished → StaysUnfinished (t.removeKey.bind fun u =>
      some { (u.push token).moveTo (u.cursor.advance 1) with keyAllowed := allowed }) := by
    intro t ht
    refine .bind fun u hu => ?_
    have hpushed := (ht.removeKey u hu).push htoken
    exact hpushed.stays rfl rfl
  unfold Lexer.readEntryMark
  split
  · exact hentry h
  · split
    · exact hentry (h.openBlock _ _ hopening)
    · exact staysUnfinished_none

theorem readColon (h : s.Unfinished) : StaysUnfinished s.readColon := by
  have hvalue : ∀ {t : Lexer}, t.Unfinished →
      StaysUnfinished (some ((t.push .value).moveTo (t.cursor.advance 1))) := by
    intro t ht
    have hpushed := ht.push (show Token.value ≠ .streamEnd by simp)
    exact hpushed.stays rfl rfl
  unfold Lexer.readColon
  split
  · next k _ =>
    have hkey := (h.insert k.token (show Token.key ≠ .streamEnd by simp)).openBlock k.column
      k.token (show Token.blockMappingStart ≠ .streamEnd by simp)
    exact hvalue ⟨hkey.finished_eq, hkey.not_mem⟩
  · split
    · exact hvalue ⟨h.finished_eq, h.not_mem⟩
    · split
      · have hopen := h.openBlock s.cursor.column s.count
          (show Token.blockMappingStart ≠ .streamEnd by simp)
        exact hvalue ⟨hopen.finished_eq, hopen.not_mem⟩
      · exact staysUnfinished_none

theorem takeDirective_ne {c : Cursor} {p : Token × Cursor} (h : takeDirective c = some p) :
    p.1 ≠ .streamEnd := by
  have hversion : ∀ {d : Cursor} {q : Token × Cursor}, takeVersion d = some q →
      q.1 ≠ .streamEnd := by
    intro d q hq
    obtain ⟨major, -, hq⟩ := Option.bind_eq_some_iff.mp hq
    obtain ⟨-, hq⟩ := Option.ite_none_left_eq_some.mp hq
    obtain ⟨minor, -, hq⟩ := Option.bind_eq_some_iff.mp hq
    cases hq
    simp
  have hhandle : ∀ {d : Cursor} {q : Token × Cursor}, takeTagHandle d = some q →
      q.1 ≠ .streamEnd := by
    intro d q hq
    obtain ⟨handle, -, hq⟩ := Option.bind_eq_some_iff.mp hq
    obtain ⟨-, hq⟩ := Option.ite_none_left_eq_some.mp hq
    obtain ⟨-, hq⟩ := Option.ite_none_left_eq_some.mp hq
    obtain ⟨text, -, hq⟩ := Option.bind_eq_some_iff.mp hq
    obtain ⟨-, hq⟩ := Option.ite_none_right_eq_some.mp hq
    cases hq
    simp
  rw [takeDirective_eq] at h
  obtain ⟨q, hq, h⟩ := Option.bind_eq_some_iff.mp h
  obtain ⟨-, h⟩ := Option.ite_none_right_eq_some.mp h
  cases h
  obtain ⟨-, hq⟩ := Option.ite_none_left_eq_some.mp hq
  change q.1 ≠ .streamEnd
  split at hq
  · exact hversion hq
  · obtain ⟨-, hq⟩ := Option.ite_none_right_eq_some.mp hq
    exact hhandle hq

theorem readToken (h : s.Unfinished) (ch : Char) (rest : List Char) :
    StaysUnfinished (s.readToken ch rest) := by
  have hmap : ∀ {α : Type} {take : Cursor → Option (α × Cursor)} (token : α → Token),
      (∀ a, token a ≠ .streamEnd) → ∀ c p,
      (take c).map (fun q => (token q.1, q.2)) = some p → p.1 ≠ .streamEnd := by
    intro α take token htoken c p hp
    obtain ⟨q, -, rfl⟩ := Option.map_eq_some_iff.mp hp
    exact htoken q.1
  have htag : ∀ flow c p, takeTag flow c = some p → p.1 ≠ .streamEnd := by
    intro flow c p hp
    obtain ⟨parts, -, hp⟩ := Option.bind_eq_some_iff.mp hp
    obtain ⟨-, hp⟩ := Option.ite_none_right_eq_some.mp hp
    cases hp
    simp
  have hmark : ∀ {token : Token} {n : Nat}, token ≠ .streamEnd → ∀ c p,
      mark token n c = some p → p.1 ≠ .streamEnd := by
    rintro token n htoken c p ⟨⟩
    exact htoken
  unfold Lexer.readToken
  refine .ite (h.readDocumentMark fun _ _ => takeDirective_ne) ?_
  refine .ite (h.readDocumentMark (hmark (by split <;> simp))) ?_
  refine .ite (h.openFlow (by simp)) (.ite (h.openFlow (by simp)) ?_)
  refine .ite (h.closeFlow (by simp)) (.ite (h.closeFlow (by simp)) ?_)
  refine .ite h.readComma (.ite (h.readEntryMark _ (by simp) (by simp)) ?_)
  refine .ite (h.readEntryMark _ (by simp) (by simp)) (.ite h.readColon ?_)
  refine .ite (h.readContent (hmap .reference (by simp))) ?_
  refine .ite (h.readContent (hmap .anchor (by simp))) ?_
  refine .ite (h.readContent (htag _)) (.ite (h.readBlock true) (.ite (h.readBlock false) ?_))
  refine .ite (h.readContent (hmap (.scalar · .singleQuoted) (by simp))) ?_
  refine .ite (h.readContent (hmap (.scalar · .doubleQuoted) (by simp))) ?_
  exact .ite h.readPlain (.ite h.readPlain (.ite h.readPlain staysUnfinished_none))

end Unfinished

theorem dropStale_cursor {t : Lexer} (h : s.dropStale = some t) : t.cursor = s.cursor := by
  obtain ⟨key, -, h⟩ := Option.bind_eq_some_iff.mp h
  obtain ⟨keys, -, h⟩ := Option.bind_eq_some_iff.mp h
  cases h
  rfl

theorem removeKey_cursor {t : Lexer} (h : s.removeKey = some t) : t.cursor = s.cursor := by
  obtain ⟨-, h⟩ := Option.ite_none_left_eq_some.mp h
  cases h
  rfl

theorem readEnd_rest {t : Lexer} (h : s.readEnd = some t) : t.cursor.rest = s.cursor.rest := by
  obtain ⟨u, hu, h⟩ := Option.bind_eq_some_iff.mp h
  cases h
  have hcursor := removeKey_cursor hu
  rw [LexerTwin.closeBlocks_cursor] at hcursor
  have hrest : u.cursor.rest = s.cursor.rest := by
    rw [hcursor]
    split <;> rfl
  exact hrest

theorem Unfinished.next (h : s.Unfinished) {t : Lexer} (ht : s.next = some t)
    (hleft : t.cursor.rest ≠ []) : t.Unfinished := by
  rw [next_eq] at ht
  obtain ⟨u, hu, ht⟩ := Option.bind_eq_some_iff.mp ht
  have hstart : (atToken s).Unfinished := ⟨h.finished_eq, h.not_mem⟩
  have hclosed := (hstart.dropStale u hu).closeBlocks ((atToken s).cursor.column + 1)
  split at ht
  · next hrest =>
    have hnil := readEnd_rest ht
    rw [LexerTwin.closeBlocks_cursor, dropStale_cursor hu, hrest] at hnil
    exact absurd hnil hleft
  · exact hclosed.readToken _ _ t ht

theorem Unfinished.readySoFar (h : s.Unfinished) (ready : Nat) :
    Token.streamEnd ∉ s.readySoFar ready := fun hmem =>
  h.not_mem (List.mem_of_mem_drop (List.mem_reverse.mp hmem))

/-- Where characters have to be left over, the end of the text is not read. -/
theorem streamEnd_not_mem_run {reserve : Nat} (hreserve : 0 < reserve) :
    ∀ {n ready : Nat} {s : Lexer}, s.Unfinished → Token.streamEnd ∉ s.run reserve n ready
  | 0, ready, s, h => h.readySoFar ready
  | n + 1, ready, s, h => by
    rw [run]
    split
    · exact h.readySoFar ready
    · next t ht =>
      have hstale := h.dropStale t ht
      rw [hstale.finished_eq]
      simp only [Bool.false_eq_true, if_false]
      split
      · exact hstale.readySoFar t.ready
      · next u hu =>
        obtain ⟨hnext, hhas⟩ := Option.filter_eq_some_iff.mp hu
        have hleft : u.cursor.rest ≠ [] := by
          intro hnil
          unfold Cursor.has at hhas
          rw [hnil, List.take_nil, List.length_nil, beq_iff_eq] at hhas
          omega
        exact streamEnd_not_mem_run hreserve (hstale.next hnext hleft)

end Lexer

/-- The tokens of a text with characters that no text may hold do not end it. -/
theorem streamEnd_not_mem_tokens {text : List Char} (h : ¬ text.all isAllowed = true) :
    Token.streamEnd ∉ tokens text := by
  unfold tokens
  simp only [if_neg h]
  exact Lexer.streamEnd_not_mem_run (by decide) ⟨rfl, List.not_mem_nil⟩

namespace Reader

/-- The end of the text is not among the tokens that are left. -/
def Unended (r : Reader) : Prop := Token.streamEnd ∉ r.tokens

/-- A result leaves no end of the text. -/
def StaysUnended (x : Result Reader) : Prop := ∀ r, x = .ok r → r.Unended

theorem StaysUnended.bind {α : Type} {x : Result α} {f : α → Result Reader}
    (h : ∀ a, x = .ok a → StaysUnended (f a)) : StaysUnended (x >>= f) := by
  intro r hr
  obtain ⟨a, ha, hf⟩ := Outcome.bind_eq_ok.mp hr
  exact h a ha r hf

theorem stays_error (r : Reader) : StaysUnended (.error r) := by
  rintro t ⟨⟩

/-- Only the tokens that are left matter. -/
theorem Unended.stays {r : Reader} (h : r.Unended) {t : Reader} (ht : t.tokens ⊆ r.tokens) :
    StaysUnended (.ok t) := by
  rintro _ ⟨⟩
  exact fun hmem => h (ht hmem)

theorem Unended.skip {r : Reader} (h : r.Unended) : r.skip.Unended := fun hmem =>
  h (List.mem_of_mem_tail hmem)

/-- Past the comma before an item that is not the first. -/
theorem Unended.pastComma {r : Reader} (h : r.Unended) (first : Bool) :
    (if first then r else r.skip).Unended := by
  split
  · exact h
  · exact h.skip

theorem bind_tokens (anchor : Option (List Char)) (r : Reader) :
    (r.bind anchor).tokens = r.tokens := by
  unfold bind
  split <;> rfl

theorem Unended.emitNode {r : Reader} (h : r.Unended) (p : Properties)
    (event : Option Tag → Event) : (r.emitNode p event).Unended := by
  have htokens : (r.emitNode p event).tokens = r.tokens := bind_tokens p.anchor r
  unfold Unended
  rwa [htokens]

theorem properties_unended {r : Reader} (h : r.Unended) {p : Properties × Reader}
    (hp : r.properties = .ok p) : p.2.Unended := by
  have hrest : ∀ {rest : List Token}, rest ⊆ r.tokens → Token.streamEnd ∉ rest := fun hsub hmem =>
    h (hsub hmem)
  unfold properties at hp
  split at hp
  · next name handle suffix rest heq =>
    obtain ⟨tag, -, hp⟩ := Outcome.bind_eq_ok.mp hp
    cases hp
    exact hrest (by rw [heq]; simp)
  · next name rest _ heq =>
    cases hp
    exact hrest (by rw [heq]; simp)
  · next handle suffix name rest heq =>
    obtain ⟨tag, -, hp⟩ := Outcome.bind_eq_ok.mp hp
    cases hp
    exact hrest (by rw [heq]; simp)
  · next handle suffix rest _ heq =>
    obtain ⟨tag, -, hp⟩ := Outcome.bind_eq_ok.mp hp
    cases hp
    exact hrest (by rw [heq]; simp)
  · cases hp
    exact h

/-- All readers of nodes leave no end of the text, if there was none. -/
structure ReadsUnended (n : Nat) : Prop where
  node : ∀ {place r}, Unended r → StaysUnended (node n place r)
  nodeUnless : ∀ {stops place r}, Unended r → StaysUnended (nodeUnless n stops place r)
  blockEntries : ∀ {r}, Unended r → StaysUnended (blockEntries n r)
  looseEntries : ∀ {r}, Unended r → StaysUnended (looseEntries n r)
  blockPairs : ∀ {r}, Unended r → StaysUnended (blockPairs n r)
  blockValue : ∀ {r}, Unended r → StaysUnended (blockValue n r)
  flowItems : ∀ {first r}, Unended r → StaysUnended (flowItems n first r)
  flowItemKey : ∀ {r}, Unended r → StaysUnended (flowItemKey n r)
  flowItemValue : ∀ {r}, Unended r → StaysUnended (flowItemValue n r)
  flowPairs : ∀ {first r}, Unended r → StaysUnended (flowPairs n first r)
  flowValue : ∀ {r}, Unended r → StaysUnended (flowValue n r)

section

variable {n : Nat} {r : Reader}

theorem ReadsUnended.node_succ (ih : ReadsUnended n) {place : Place} (h : r.Unended) :
    StaysUnended (Reader.node (n + 1) place r) := by
  rw [Reader.node]
  refine .bind fun t _ => ?_
  split
  · split
    · exact h.skip.stays (List.Subset.refl _)
    · exact stays_error r
  · refine .bind fun p hp => ?_
    have hr := properties_unended h hp
    refine .bind fun t _ => ?_
    split
    · exact ih.looseEntries (hr.emitNode _ _)
    · exact (hr.emitNode _ _).skip.stays (List.Subset.refl _)
    · exact ih.flowItems (hr.emitNode _ _).skip
    · exact ih.flowPairs (hr.emitNode _ _).skip
    · exact ih.blockEntries (hr.emitNode _ _).skip
    · exact ih.blockEntries (hr.emitNode _ _).skip
    · exact ih.blockPairs (hr.emitNode _ _).skip
    · exact ih.blockPairs (hr.emitNode _ _).skip
    · split
      · exact (hr.emitNode _ _).stays (List.Subset.refl _)
      · exact stays_error _

theorem ReadsUnended.nodeUnless_succ (ih : ReadsUnended n) {stops : Token → Bool} {place : Place}
    (h : r.Unended) : StaysUnended (Reader.nodeUnless (n + 1) stops place r) := by
  rw [Reader.nodeUnless]
  refine .bind fun t _ => ?_
  split
  · exact h.stays (List.Subset.refl _)
  · exact ih.node h

theorem ReadsUnended.blockEntries_succ (ih : ReadsUnended n) (h : r.Unended) :
    StaysUnended (Reader.blockEntries (n + 1) r) := by
  rw [Reader.blockEntries]
  refine .bind fun t _ => ?_
  split
  · exact .bind fun q hq => ih.blockEntries (ih.nodeUnless h.skip q hq)
  · exact h.skip.stays (List.Subset.refl _)
  · exact stays_error r

theorem ReadsUnended.looseEntries_succ (ih : ReadsUnended n) (h : r.Unended) :
    StaysUnended (Reader.looseEntries (n + 1) r) := by
  rw [Reader.looseEntries]
  refine .bind fun t _ => ?_
  split
  · exact .bind fun q hq => ih.looseEntries (ih.nodeUnless h.skip q hq)
  · exact h.stays (List.Subset.refl _)

theorem ReadsUnended.blockPairs_succ (ih : ReadsUnended n) (h : r.Unended) :
    StaysUnended (Reader.blockPairs (n + 1) r) := by
  rw [Reader.blockPairs]
  refine .bind fun t _ => ?_
  split
  · exact .bind fun q hq => ih.blockValue (ih.nodeUnless h.skip q hq)
  · exact h.skip.stays (List.Subset.refl _)
  · exact stays_error r

theorem ReadsUnended.blockValue_succ (ih : ReadsUnended n) (h : r.Unended) :
    StaysUnended (Reader.blockValue (n + 1) r) := by
  rw [Reader.blockValue]
  refine .bind fun t _ => ?_
  split
  · exact .bind fun q hq => ih.blockPairs (ih.nodeUnless h.skip q hq)
  · exact ih.blockPairs h

theorem ReadsUnended.flowItems_succ (ih : ReadsUnended n) {first : Bool} (h : r.Unended) :
    StaysUnended (Reader.flowItems (n + 1) first r) := by
  rw [Reader.flowItems]
  refine .bind fun t _ => ?_
  split
  · exact h.skip.stays (List.Subset.refl _)
  · split
    · exact stays_error r
    · have hr := h.pastComma first
      refine .bind fun t _ => ?_
      split
      · exact ih.flowItemKey hr.skip
      · exact hr.skip.stays (List.Subset.refl _)
      · exact .bind fun q hq => ih.flowItems (ih.node hr q hq)

theorem ReadsUnended.flowItemKey_succ (ih : ReadsUnended n) (h : r.Unended) :
    StaysUnended (Reader.flowItemKey (n + 1) r) := by
  rw [Reader.flowItemKey]
  refine .bind fun t _ => ?_
  split
  · exact ih.flowItemValue h.skip
  · exact ih.flowItemValue h.skip
  · exact ih.flowItemValue h.skip
  · exact .bind fun q hq => ih.flowItemValue (ih.node h q hq)

theorem ReadsUnended.flowItemValue_succ (ih : ReadsUnended n) (h : r.Unended) :
    StaysUnended (Reader.flowItemValue (n + 1) r) := by
  have hend : ∀ {q : Reader}, q.Unended → StaysUnended (do
      let _ ← q.peek
      Reader.flowItems n false (q.emit .mappingEnd)) := fun hq => .bind fun _ _ => ih.flowItems hq
  rw [Reader.flowItemValue]
  refine .bind fun t _ => ?_
  dsimp only
  split
  · exact .bind fun q hq => hend (ih.nodeUnless h.skip q hq)
  · exact hend h

theorem ReadsUnended.flowPairs_succ (ih : ReadsUnended n) {first : Bool} (h : r.Unended) :
    StaysUnended (Reader.flowPairs (n + 1) first r) := by
  rw [Reader.flowPairs]
  refine .bind fun t _ => ?_
  split
  · exact h.skip.stays (List.Subset.refl _)
  · split
    · exact stays_error r
    · have hr := h.pastComma first
      refine .bind fun t _ => ?_
      split
      · exact .bind fun q hq => ih.flowValue (ih.nodeUnless hr.skip q hq)
      · exact hr.skip.stays (List.Subset.refl _)
      · exact .bind fun q hq => .bind fun _ _ => ih.flowPairs (ih.node hr q hq)

theorem ReadsUnended.flowValue_succ (ih : ReadsUnended n) (h : r.Unended) :
    StaysUnended (Reader.flowValue (n + 1) r) := by
  rw [Reader.flowValue]
  refine .bind fun t _ => ?_
  dsimp only
  split
  · exact .bind fun q hq => ih.flowPairs (ih.nodeUnless h.skip q hq)
  · exact ih.flowPairs h

end

theorem readsUnended : ∀ n, ReadsUnended n
  | 0 =>
    { node := fun _ => by rw [Reader.node]; exact stays_error _
      nodeUnless := fun _ => by rw [Reader.nodeUnless]; exact stays_error _
      blockEntries := fun _ => by rw [Reader.blockEntries]; exact stays_error _
      looseEntries := fun _ => by rw [Reader.looseEntries]; exact stays_error _
      blockPairs := fun _ => by rw [Reader.blockPairs]; exact stays_error _
      blockValue := fun _ => by rw [Reader.blockValue]; exact stays_error _
      flowItems := fun _ => by rw [Reader.flowItems]; exact stays_error _
      flowItemKey := fun _ => by rw [Reader.flowItemKey]; exact stays_error _
      flowItemValue := fun _ => by rw [Reader.flowItemValue]; exact stays_error _
      flowPairs := fun _ => by rw [Reader.flowPairs]; exact stays_error _
      flowValue := fun _ => by rw [Reader.flowValue]; exact stays_error _ }
  | n + 1 =>
    have ih := readsUnended n
    { node := ih.node_succ
      nodeUnless := ih.nodeUnless_succ
      blockEntries := ih.blockEntries_succ
      looseEntries := ih.looseEntries_succ
      blockPairs := ih.blockPairs_succ
      blockValue := ih.blockValue_succ
      flowItems := ih.flowItems_succ
      flowItemKey := ih.flowItemKey_succ
      flowItemValue := ih.flowItemValue_succ
      flowPairs := ih.flowPairs_succ
      flowValue := ih.flowValue_succ }

/-! ### Documents -/

theorem directives_unended {tokens : List Token} {versioned : Bool} {r : Reader}
    (h : r.Unended) (hsub : tokens ⊆ r.tokens) :
    StaysUnended (directives tokens versioned r) := by
  induction tokens, versioned, r using directives.induct with
  | case1 major minor rest versioned r hbad =>
    rw [directives, if_pos hbad]
    exact stays_error r
  | case2 major minor rest versioned r hgood ih =>
    have hrest : rest ⊆ r.tokens := fun _ hmem => hsub (List.mem_cons_of_mem _ hmem)
    rw [directives, if_neg hgood]
    exact ih (fun hmem => h (hrest hmem)) (List.Subset.refl _)
  | case3 handle expansion rest versioned r hknown =>
    rw [directives, if_pos hknown]
    exact stays_error r
  | case4 handle expansion rest versioned r hnew ih =>
    have hrest : rest ⊆ r.tokens := fun _ hmem => hsub (List.mem_cons_of_mem _ hmem)
    rw [directives, if_neg hnew]
    exact ih (fun hmem => h (hrest hmem)) (List.Subset.refl _)
  | case5 tokens versioned r hversion hhandle =>
    rw [directives]
    · exact h.stays (List.Subset.refl _)
    · exact hversion
    · exact hhandle

theorem firstDocument_unended (n : Nat) {r : Reader} (h : r.Unended) :
    StaysUnended (r.firstDocument n) := by
  have ih := readsUnended n
  unfold firstDocument
  refine .bind fun t _ => ?_
  split
  case h_1 => exact h.stays (List.Subset.refl _)
  case h_5 => exact ih.node h
  -- a directive or the mark: the document starts behind the directives
  all_goals
    refine .bind fun q hq => .bind fun t _ => ?_
    have hq := directives_unended h (List.Subset.refl _) q hq
    split
    · exact ih.nodeUnless hq.skip
    · exact stays_error q

theorem streamEnd_mem_of_atEnd {tokens : List Token} (h : atEnd tokens = true) :
    Token.streamEnd ∈ tokens := by
  induction tokens using atEnd.induct with
  | case1 rest ih => exact List.mem_cons_of_mem _ (ih h)
  | case2 rest => exact List.mem_cons_self
  | case3 tokens hmark hend =>
    rw [atEnd] at h
    · cases h
    · exact hmark
    · exact hend

end Reader

/-- **No document of a text with characters that no text may hold is complete.** -/
theorem complete_ofTokens_eq_false {text : List Char} (h : ¬ text.all isAllowed = true) :
    (Document.ofTokens (tokens text)).complete = false := by
  have hstart : Reader.Unended ⟨tokens text, [], [], [], []⟩ := streamEnd_not_mem_tokens h
  unfold Document.ofTokens
  dsimp only
  split
  · next r hr =>
    have hended := Reader.firstDocument_unended _ hstart r hr
    exact Bool.eq_false_iff.mpr fun hend => hended (Reader.streamEnd_mem_of_atEnd hend)
  · rfl

end Yaml
end SitePlan
