/-
# Tokens and both kinds of line ends

A text has the same tokens, whichever line ends it is written with. The lexers of the two
texts go in step: at twins, with the same tokens, margins and permissions, and with places of
keys that differ in the octets before them alone. A place is given up at the end of its
line or 1024 octets on. As long as the line lasts, the octets from the place on are the
same in number, so it is given up in both texts or in none.

Key definitions: `Yaml.KeyTwin`, `Yaml.LexerTwin`.
Key theorems: `Yaml.freshKey_twin`, `Yaml.readToken_twin`, `Yaml.next_twin`, `Yaml.run_twin`,
`Yaml.tokens_crlf`.
-/
import SitePlan.Proofs.Yaml.LineEnds.Block
import SitePlan.Proofs.Yaml.LineEnds.Scalar
import SitePlan.Proofs.Yaml.LineEnds.Tag
import SitePlan.Yaml.Token.Lexer

namespace SitePlan
namespace Yaml

open Text (crlf)
open Outcome (rel_bind rel_map rel_imp rel_mapM rel_forall rel_ite)
open Outcome (exists_of_rel_some eq_none_of_rel_none)

variable {room : Nat}

/-- Places of keys before twins: on the line of the place as many octets lie between. -/
structure KeyTwin (room : Nat) (c c' : Cursor) (k k' : KeyPlace) : Prop where
  token_eq : k'.token = k.token
  line_eq : k'.line = k.line
  column_eq : k'.column = k.column
  required_eq : k'.required = k.required
  twin : Twin room k.line (k'.offset - k.offset) c c'

/-- Lexers of a text and of the one with carriage returns. -/
structure LexerTwin (room : Nat) (s s' : Lexer) : Prop where
  cursor : ∃ line shift, Twin room line shift s.cursor s'.cursor
  key : Option.Rel (KeyTwin room s.cursor s'.cursor) s.key s'.key
  outerKeys : List.Forall₂ (Option.Rel (KeyTwin room s.cursor s'.cursor)) s.outerKeys s'.outerKeys
  read_eq : s'.read = s.read
  count_eq : s'.count = s.count
  margins_eq : s'.margins = s.margins
  keyAllowed_eq : s'.keyAllowed = s.keyAllowed
  finished_eq : s'.finished = s.finished

theorem Twin.here {line : Nat} {shift : Int} {c c' : Cursor} (h : Twin room line shift c c') :
    Twin room c.line (c'.offset - c.offset) c c' :=
  { h with reached := Nat.le_refl _, offset := fun _ => by omega }

/-! ### Places of keys -/

/-- A place is given up in both texts or in none. -/
theorem freshKey_twin {c c' : Cursor} {k k' : Option KeyPlace} (hline : c'.line = c.line)
    (h : Option.Rel (KeyTwin room c c') k k') :
    Option.Rel (Option.Rel (KeyTwin room c c')) (Lexer.freshKey c k) (Lexer.freshKey c' k') := by
  cases h with
  | none => exact .some .none
  | @some k k' h =>
    have hstale : (k'.line < c'.line ∨ k'.offset + 1024 < c'.offset) ↔
        (k.line < c.line ∨ k.offset + 1024 < c.offset) := by
      have hreached := h.twin.reached
      have hoffset := h.twin.offset
      rw [h.line_eq, hline]
      omega
    unfold Lexer.freshKey
    simp only [hstale, h.required_eq]
    split
    · split
      · exact .none
      · exact .some .none
    · exact .some (.some h)

namespace LexerTwin

variable {s s' : Lexer}

/-- All places left behind are given up in both, which leaves the position. -/
theorem dropStale (h : LexerTwin room s s') :
    Option.Rel (fun t t' => LexerTwin room t t' ∧ t.cursor = s.cursor ∧ t.finished = s.finished)
      s.dropStale s'.dropStale := by
  obtain ⟨line, shift, hcursor⟩ := h.cursor
  have hfresh : ∀ k k', Option.Rel (KeyTwin room s.cursor s'.cursor) k k' →
      Option.Rel (Option.Rel (KeyTwin room s.cursor s'.cursor)) (Lexer.freshKey s.cursor k)
        (Lexer.freshKey s'.cursor k') := fun _ _ hk => freshKey_twin hcursor.line_eq hk
  unfold Lexer.dropStale
  refine rel_bind (hfresh _ _ h.key) fun k k' hk => rel_bind (rel_mapM hfresh h.outerKeys) ?_
  exact fun ks ks' hks => .some ⟨{ h with key := hk, outerKeys := hks }, rfl, rfl⟩

theorem required_eq (h : LexerTwin room s s') :
    s'.key.any (·.required) = s.key.any (·.required) := by
  have hrequired : ∀ {k k'}, Option.Rel (KeyTwin room s.cursor s'.cursor) k k' →
      k'.any (·.required) = k.any (·.required) := by
    intro k k' hk
    cases hk with
    | none => rfl
    | some hk => exact hk.required_eq
  exact hrequired h.key

theorem removeKey (h : LexerTwin room s s') :
    Option.Rel (fun t t' => LexerTwin room t t' ∧ t.cursor = s.cursor ∧ t'.cursor = s'.cursor)
      s.removeKey s'.removeKey := by
  unfold Lexer.removeKey
  rw [h.required_eq]
  split
  · exact .none
  · exact .some ⟨{ h with key := .none }, rfl, rfl⟩

theorem inFlow_eq (h : LexerTwin room s s') : s'.inFlow = s.inFlow := by
  unfold Lexer.inFlow
  rw [Bool.eq_iff_iff]
  simp only [Bool.not_eq_true', List.isEmpty_eq_false_iff, ← List.length_pos_iff,
    h.outerKeys.length_eq]

theorem margin_eq (h : LexerTwin room s s') : s'.margin = s.margin := by
  unfold Lexer.margin
  rw [h.margins_eq]

theorem column_eq (h : LexerTwin room s s') : s'.cursor.column = s.cursor.column := by
  obtain ⟨line, shift, hcursor⟩ := h.cursor
  exact hcursor.column_eq

theorem saveKey (h : LexerTwin room s s') :
    Option.Rel (fun t t' => LexerTwin room t t' ∧ t.cursor = s.cursor ∧ t'.cursor = s'.cursor)
      s.saveKey s'.saveKey := by
  unfold Lexer.saveKey
  rw [h.keyAllowed_eq]
  split
  · refine rel_map h.removeKey ?_
    rintro t t' ⟨ht, htc, htc'⟩
    obtain ⟨line, shift, hcursor⟩ := ht.cursor
    refine ⟨{ ht with key := .some ⟨?_, ?_, ?_, ?_, ?_⟩ }, htc, htc'⟩
    · exact ht.count_eq
    · exact hcursor.line_eq
    · exact hcursor.column_eq
    · rw [ht.inFlow_eq, ht.margin_eq, ht.column_eq]
    · exact hcursor.here
  · exact .some ⟨h, rfl, rfl⟩

theorem push (h : LexerTwin room s s') (token : Token) :
    LexerTwin room (s.push token) (s'.push token) :=
  { h with
    read_eq := by rw [Lexer.push, Lexer.push, h.read_eq]
    count_eq := by rw [Lexer.push, Lexer.push, h.count_eq] }

theorem insert (h : LexerTwin room s s') (place : Nat) (token : Token) :
    LexerTwin room (s.insert place token) (s'.insert place token) :=
  { h with
    read_eq := by simp only [Lexer.insert, h.read_eq, h.count_eq]
    count_eq := by rw [Lexer.insert, Lexer.insert, h.count_eq] }

theorem allow (h : LexerTwin room s s') (allowed : Bool) :
    LexerTwin room { s with keyAllowed := allowed } { s' with keyAllowed := allowed } :=
  { h with keyAllowed_eq := rfl }

theorem moveTo {left : Nat} {c c' : Cursor} (h : LexerTwin room s s')
    (hc : ∀ line shift, Twin room line shift s.cursor s'.cursor → Twin left line shift c c') :
    LexerTwin left (s.moveTo c) (s'.moveTo c') := by
  have hkey : ∀ {k k'}, KeyTwin room s.cursor s'.cursor k k' → KeyTwin left c c' k k' :=
    fun hk => { hk with twin := hc _ _ hk.twin }
  obtain ⟨line, shift, hcursor⟩ := h.cursor
  exact { h with
    cursor := ⟨line, shift, hc _ _ hcursor⟩
    key := rel_imp h.key fun _ _ => hkey
    outerKeys := h.outerKeys.imp fun _ _ hk => rel_imp hk fun _ _ => hkey }

theorem closeBlocks (h : LexerTwin room s s') (limit : Nat) :
    LexerTwin room (s.closeBlocks limit) (s'.closeBlocks limit) := by
  unfold Lexer.closeBlocks
  rw [h.inFlow_eq, h.margins_eq]
  split
  · exact h
  · exact { h with
      margins_eq := rfl
      read_eq := by rw [h.read_eq]
      count_eq := by rw [h.count_eq] }

theorem openBlock (h : LexerTwin room s s') (column place : Nat) (token : Token) :
    LexerTwin room (s.openBlock column place token) (s'.openBlock column place token) := by
  unfold Lexer.openBlock
  rw [h.inFlow_eq, h.margin_eq]
  split
  · have hopen : LexerTwin room { s with margins := (column + 1) :: s.margins }
        { s' with margins := (column + 1) :: s'.margins } :=
      { h with margins_eq := by rw [h.margins_eq] }
    exact hopen.insert place token
  · exact h

theorem ready_eq (h : LexerTwin room s s') : s'.ready = s.ready := by
  have hfold : ∀ {ks ks'}, List.Forall₂ (Option.Rel (KeyTwin room s.cursor s'.cursor)) ks ks' →
      ∀ n, ks'.foldl (fun n k => k.elim n fun k => min n k.token) n =
        ks.foldl (fun n k => k.elim n fun k => min n k.token) n := by
    intro ks ks' hks
    induction hks with
    | nil => exact fun n => rfl
    | cons hk _ ih =>
      intro n
      rw [List.foldl_cons, List.foldl_cons, ih]
      cases hk with
      | none => rfl
      | some hk => rw [Option.elim_some, Option.elim_some, hk.token_eq]
  unfold Lexer.ready
  rw [hfold (.cons h.key h.outerKeys), h.count_eq]

/-! ### Reading one token -/

theorem readEnd (h : LexerTwin room s s') :
    Option.Rel (fun t t' => LexerTwin room t t' ∧ t.finished = true) s.readEnd s'.readEnd := by
  have hend : LexerTwin room
      (if s.cursor.column == 0 then s
        else s.moveTo { s.cursor with column := 0, line := s.cursor.line + 1 })
      (if s'.cursor.column == 0 then s'
        else s'.moveTo { s'.cursor with column := 0, line := s'.cursor.line + 1 }) := by
    rw [h.column_eq]
    split
    · exact h
    · refine h.moveTo fun line shift hc => ?_
      exact { hc with
        line_eq := congrArg (· + 1) hc.line_eq
        column_eq := rfl
        reached := Nat.le_succ_of_le hc.reached
        offset := fun hline => absurd hline (Nat.ne_of_gt (Nat.lt_succ_of_le hc.reached)) }
  unfold Lexer.readEnd
  refine rel_bind (hend.closeBlocks 0).removeKey ?_
  rintro t t' ⟨ht, -, -⟩
  exact .some ⟨{ (ht.push .streamEnd).allow false with finished_eq := rfl }, rfl⟩

/-- What is read from twins, and leads to twins, is added to both. -/
theorem taken {α : Type} {left : Nat} {x x' : Option (α × Cursor)} (h : LexerTwin room s s')
    (token : α → Token) (allowed : α → Bool)
    (hx : ∀ line shift, Twin room line shift s.cursor s'.cursor →
      Option.Rel (Beside (Twin left line shift)) x x') :
    Option.Rel (LexerTwin left)
      (x.bind fun p => some { (s.push (token p.1)).moveTo p.2 with keyAllowed := allowed p.1 })
      (x'.bind fun p =>
        some { (s'.push (token p.1)).moveTo p.2 with keyAllowed := allowed p.1 }) := by
  obtain ⟨line, shift, hcursor⟩ := h.cursor
  have hall := rel_forall (P := fun i : Nat × Int => Twin room i.1 i.2 s.cursor s'.cursor)
    (T := fun i => Beside (Twin left i.1 i.2)) ⟨(line, shift), hcursor⟩ fun i hi => hx i.1 i.2 hi
  refine rel_bind hall ?_
  rintro ⟨a, d⟩ ⟨a', d'⟩ hd
  obtain rfl : a' = a := (hd (line, shift) hcursor).fst_eq
  exact .some (((h.push _).moveTo fun line shift hc => (hd (line, shift) hc).snd).allow _)

theorem closeBlocks_cursor (limit : Nat) : (s.closeBlocks limit).cursor = s.cursor := by
  unfold Lexer.closeBlocks
  split <;> rfl

theorem readDocumentMark {left : Nat} {take : Cursor → Option (Token × Cursor)}
    (h : LexerTwin room s s')
    (htake : ∀ line shift, Twin room line shift s.cursor s'.cursor →
      Option.Rel (Beside (Twin left line shift)) (take s.cursor) (take s'.cursor)) :
    Option.Rel (LexerTwin left) (s.readDocumentMark take) (s'.readDocumentMark take) := by
  unfold Lexer.readDocumentMark
  refine rel_bind (h.closeBlocks 0).removeKey ?_
  rintro t t' ⟨ht, hc, hc'⟩
  rw [closeBlocks_cursor] at hc hc'
  exact ht.taken id (fun _ => false) (by rwa [hc, hc'])

theorem readContent {left : Nat} {take : Cursor → Option (Token × Cursor)}
    (h : LexerTwin room s s')
    (htake : ∀ line shift, Twin room line shift s.cursor s'.cursor →
      Option.Rel (Beside (Twin left line shift)) (take s.cursor) (take s'.cursor)) :
    Option.Rel (LexerTwin left) (s.readContent take) (s'.readContent take) := by
  unfold Lexer.readContent
  refine rel_bind h.saveKey ?_
  rintro t t' ⟨ht, hc, hc'⟩
  exact ht.taken id (fun _ => false) (by rwa [hc, hc'])

theorem readBlock {isLiteral : Bool} {ch : Char} {cs : List Char} (h : LexerTwin room s s')
    (hch : s.cursor.rest = ch :: cs) (hn : ch ≠ '\n') :
    Option.Rel (LexerTwin (room - 1)) (s.readBlock isLiteral) (s'.readBlock isLiteral) := by
  unfold Lexer.readBlock
  refine rel_bind h.removeKey ?_
  rintro t t' ⟨ht, hc, hc'⟩
  rw [ht.margin_eq]
  exact ht.taken (fun text => .scalar text (if isLiteral then .literal else .folded))
    (fun _ => true) fun line shift hcursor => takeBlock_twin hcursor (by rwa [hc]) hn

theorem readPlain_eq (s : Lexer) : s.readPlain = s.saveKey.bind fun t =>
    ((Scalar.takePlain t.inFlow t.margin t.cursor).map fun p => ((p.1, p.2.1), p.2.2)).bind
      fun p => some { (t.push (.scalar p.1.1 .plain)).moveTo p.2 with keyAllowed := p.1.2 } := by
  unfold Lexer.readPlain
  refine congrArg (Option.bind _) (funext fun t => ?_)
  rw [Option.bind_map]
  rfl

theorem readPlain (h : LexerTwin room s s')
    (hmark : (s.cursor.atDocumentMark || s.cursor.rest.head? == some '#') = false)
    (hrun : ∀ flow, Scalar.plainRun flow s.cursor.rest ≠ some []) :
    Option.Rel (LexerTwin (room - 1)) s.readPlain s'.readPlain := by
  rw [readPlain_eq, readPlain_eq]
  refine rel_bind h.saveKey ?_
  rintro t t' ⟨ht, hc, hc'⟩
  refine ht.taken (fun p => .scalar p.1 .plain) Prod.snd fun line shift hcursor => ?_
  rw [ht.inFlow_eq, ht.margin_eq]
  refine rel_map (takePlain_twin hcursor (by rwa [hc]) (by rw [hc]; exact hrun _)) ?_
  rintro ⟨text, stopped, d⟩ ⟨text', stopped', d'⟩ ⟨⟨hd⟩⟩
  exact .mk hd

/-! ### Marks of one character -/

section

variable {ch : Char} {cs : List Char}

theorem pastMark (h : LexerTwin room s s') (hch : s.cursor.rest = ch :: cs) (hn : ch ≠ '\n')
    (token : Token) : LexerTwin (room - 1) ((s.push token).moveTo (s.cursor.advance 1))
      ((s'.push token).moveTo (s'.cursor.advance 1)) :=
  (h.push token).moveTo fun _ _ hc => hc.advance_one hch hn

theorem openFlow (h : LexerTwin room s s') (hch : s.cursor.rest = ch :: cs) (hn : ch ≠ '\n')
    (token : Token) : Option.Rel (LexerTwin (room - 1)) (s.openFlow token) (s'.openFlow token) := by
  unfold Lexer.openFlow
  refine rel_bind h.saveKey ?_
  rintro t t' ⟨ht, hc, -⟩
  have hafter := ht.pastMark (hc ▸ hch) hn token
  exact .some { hafter with
    key := .none
    outerKeys := .cons hafter.key hafter.outerKeys
    keyAllowed_eq := rfl }

theorem closeFlow (h : LexerTwin room s s') (hch : s.cursor.rest = ch :: cs) (hn : ch ≠ '\n')
    (token : Token) :
    Option.Rel (LexerTwin (room - 1)) (s.closeFlow token) (s'.closeFlow token) := by
  unfold Lexer.closeFlow
  refine rel_bind h.removeKey ?_
  rintro t t' ⟨ht, hc, -⟩
  have houter := ht.outerKeys
  cases hk : t.outerKeys with
  | nil =>
    rw [hk] at houter
    cases hk' : t'.outerKeys with
    | cons k' ks' =>
      rw [hk'] at houter
      cases houter
    | nil => exact .some ((ht.pastMark (hc ▸ hch) hn token).allow false)
  | cons k ks =>
    rw [hk] at houter
    cases hk' : t'.outerKeys with
    | nil =>
      rw [hk'] at houter
      cases houter
    | cons k' ks' =>
      rw [hk'] at houter
      obtain ⟨hkey, hkeys⟩ := List.forall₂_cons.mp houter
      have hinner : LexerTwin room { t with key := k, outerKeys := ks }
          { t' with key := k', outerKeys := ks' } :=
        { ht with key := hkey, outerKeys := hkeys }
      exact .some ((hinner.pastMark (hc ▸ hch) hn token).allow false)

theorem readComma (h : LexerTwin room s s') (hch : s.cursor.rest = ch :: cs) (hn : ch ≠ '\n') :
    Option.Rel (LexerTwin (room - 1)) s.readComma s'.readComma := by
  unfold Lexer.readComma
  refine rel_bind h.removeKey ?_
  rintro t t' ⟨ht, hc, -⟩
  exact .some ((ht.pastMark (hc ▸ hch) hn .flowEntry).allow true)

theorem openBlock_cursor (column place : Nat) (token : Token) :
    (s.openBlock column place token).cursor = s.cursor := by
  unfold Lexer.openBlock
  split <;> rfl

/-- The block that an entry needs, which leaves the position. -/
def openedEntry (opening : Token) (s : Lexer) : Option Lexer :=
  if s.inFlow then some s
  else if s.keyAllowed then some (s.openBlock s.cursor.column s.count opening)
  else none

theorem readEntryMark_eq (token opening : Token) (allowed : Bool) (s : Lexer) :
    s.readEntryMark token opening allowed = (openedEntry opening s).bind fun t =>
      t.removeKey.bind fun u =>
        some { (u.push token).moveTo (u.cursor.advance 1) with keyAllowed := allowed } := by
  unfold Lexer.readEntryMark openedEntry
  split
  · rfl
  · split <;> rfl

theorem openEntry (h : LexerTwin room s s') (opening : Token) :
    Option.Rel (fun t t' => LexerTwin room t t' ∧ t.cursor = s.cursor) (openedEntry opening s)
      (openedEntry opening s') := by
  unfold openedEntry
  rw [h.inFlow_eq, h.keyAllowed_eq, h.column_eq, h.count_eq]
  split
  · exact .some ⟨h, rfl⟩
  · split
    · exact .some ⟨h.openBlock _ _ _, openBlock_cursor _ _ _⟩
    · exact .none

theorem readEntryMark (h : LexerTwin room s s') (hch : s.cursor.rest = ch :: cs)
    (hn : ch ≠ '\n') (token opening : Token) (allowed : Bool) :
    Option.Rel (LexerTwin (room - 1)) (s.readEntryMark token opening allowed)
      (s'.readEntryMark token opening allowed) := by
  rw [readEntryMark_eq, readEntryMark_eq]
  refine rel_bind (h.openEntry opening) ?_
  rintro t t' ⟨ht, hc⟩
  refine rel_bind ht.removeKey ?_
  rintro u u' ⟨hu, hcu, -⟩
  exact .some ((hu.pastMark (by rw [hcu, hc, hch]) hn token).allow allowed)

/-- The key that a colon makes of a place, or the block that its value needs. -/
def openedValue (s : Lexer) : Option Lexer :=
  match s.key with
  | some k =>
    some { (s.insert k.token .key).openBlock k.column k.token .blockMappingStart with
      key := none, keyAllowed := false }
  | none =>
    if s.inFlow then some { s with keyAllowed := false }
    else if s.keyAllowed then
      some { s.openBlock s.cursor.column s.count .blockMappingStart with keyAllowed := true }
    else none

theorem readColon_eq (s : Lexer) : s.readColon =
    (openedValue s).bind fun t => some ((t.push .value).moveTo (t.cursor.advance 1)) := by
  unfold Lexer.readColon openedValue
  cases s.key with
  | some k => rfl
  | none =>
    dsimp only
    split
    · rfl
    · split <;> rfl

theorem openValue (h : LexerTwin room s s') :
    Option.Rel (fun t t' => LexerTwin room t t' ∧ t.cursor = s.cursor) (openedValue s)
      (openedValue s') := by
  have hkey := h.key
  unfold openedValue
  cases hk : s.key with
  | some k =>
    rw [hk] at hkey
    obtain ⟨k', hk', htwin⟩ := exists_of_rel_some hkey
    have hopen := (h.insert k.token .key).openBlock k.column k.token .blockMappingStart
    rw [hk']
    dsimp only
    rw [htwin.token_eq, htwin.column_eq]
    exact .some ⟨{ hopen with key := .none, keyAllowed_eq := rfl }, openBlock_cursor _ _ _⟩
  | none =>
    rw [hk] at hkey
    rw [eq_none_of_rel_none hkey]
    dsimp only
    rw [h.inFlow_eq, h.keyAllowed_eq, h.column_eq, h.count_eq]
    split
    · exact .some ⟨{ h with key := .none, count_eq := rfl, keyAllowed_eq := rfl }, rfl⟩
    · split
      · exact .some ⟨(h.openBlock _ _ _).allow true, openBlock_cursor _ _ _⟩
      · exact .none

theorem readColon (h : LexerTwin room s s') (hch : s.cursor.rest = ch :: cs) (hn : ch ≠ '\n') :
    Option.Rel (LexerTwin (room - 1)) s.readColon s'.readColon := by
  rw [readColon_eq, readColon_eq]
  refine rel_bind h.openValue ?_
  rintro t t' ⟨ht, hc⟩
  exact .some (ht.pastMark (hc ▸ hch) hn .value)

/-! ### Any token -/

theorem plainRun_ne_nil {flow : Bool} (hspace : (isGap ch || isBreak ch) = false)
    (hcolon : (ch == ':' && gapOrEnd cs) = false) (hmark : isFlowMark ch = false) :
    Scalar.plainRun flow (ch :: cs) ≠ some [] := by
  rw [Scalar.plainRun, hspace, hcolon, hmark]
  simp only [Bool.false_eq_true, if_false, Bool.and_false, Bool.or_false]
  split
  · exact fun h => by cases h
  · intro h
    obtain ⟨run, -, hrun⟩ := Option.map_eq_some_iff.mp h
    cases hrun

theorem mark_twin {line : Nat} {shift : Int} {c c' : Cursor} (h : Twin room line shift c c')
    (hmark : c.atDocumentMark = true) (token : Token) :
    Option.Rel (Beside (Twin (room - 1) line shift)) (Lexer.mark token 3 c)
      (Lexer.mark token 3 c') := by
  obtain ⟨-, sign, rest, hsign, hrest, -⟩ := atDocumentMark_iff.mp hmark
  have hn : '\n' ≠ sign := by rcases hsign with rfl | rfl <;> decide
  have hlength := h.length_le
  refine .some (.mk (h.advance ?_ (by omega)))
  rw [hrest]
  simp [hn]

theorem readPlain_of_start (h : LexerTwin room s s') (hch : s.cursor.rest = ch :: cs)
    (hmark : ¬ s.cursor.atDocumentMark = true) (hsign : ch ≠ '#')
    (hspace : (isGap ch || isBreak ch) = false) (hcolon : (ch == ':' && gapOrEnd cs) = false)
    (hflow : isFlowMark ch = false) :
    Option.Rel (LexerTwin (room - 1)) s.readPlain s'.readPlain := by
  refine h.readPlain ?_ fun flow => ?_
  · rw [Bool.eq_false_iff.mpr hmark, hch]
    simpa using hsign
  · rw [hch]
    exact plainRun_ne_nil hspace hcolon hflow

theorem readToken (h : LexerTwin room s s') (hch : s.cursor.rest = ch :: cs)
    (hbreak : isBreak ch = false) :
    Option.Rel (LexerTwin (room - 1)) (s.readToken ch cs) (s'.readToken ch (crlf cs)) := by
  have hn : ch ≠ '\n' := by
    rintro rfl
    cases hbreak
  obtain ⟨line, shift, hcursor⟩ := h.cursor
  unfold Lexer.readToken
  dsimp only
  rw [h.column_eq, hcursor.atDocumentMark, h.inFlow_eq, gapOrEnd_crlf,
    Text.head?_crlf_any (p := isGap) rfl]
  refine rel_ite (fun _ => h.readDocumentMark fun _ _ hc => ?_) fun _ => ?_
  · exact takeDirective_twin hc hch hn
  refine rel_ite (fun hmark => ?_) fun hmark => ?_
  · exact h.readDocumentMark fun _ _ hc => mark_twin hc hmark _
  refine rel_ite (fun _ => h.openFlow hch hn _) fun _ => ?_
  refine rel_ite (fun _ => h.openFlow hch hn _) fun _ => ?_
  refine rel_ite (fun _ => h.closeFlow hch hn _) fun _ => ?_
  refine rel_ite (fun _ => h.closeFlow hch hn _) fun _ => ?_
  refine rel_ite (fun _ => h.readComma hch hn) fun _ => ?_
  refine rel_ite (fun _ => h.readEntryMark hch hn _ _ _) fun hentry => ?_
  refine rel_ite (fun _ => h.readEntryMark hch hn _ _ _) fun hkey => ?_
  refine rel_ite (fun _ => h.readColon hch hn) fun hcolon => ?_
  refine rel_ite (fun _ => h.readContent fun _ _ hc => ?_) fun _ => ?_
  · exact rel_map (takeName_twin hc hch hn) fun _ _ hp => hp.map _
  refine rel_ite (fun _ => h.readContent fun _ _ hc => ?_) fun _ => ?_
  · exact rel_map (takeName_twin hc hch hn) fun _ _ hp => hp.map _
  refine rel_ite (fun _ => h.readContent fun _ _ hc => takeTag_twin hc) fun _ => ?_
  refine rel_ite (fun _ => h.readBlock hch hn) fun _ => ?_
  refine rel_ite (fun _ => h.readBlock hch hn) fun _ => ?_
  refine rel_ite (fun hquote => h.readContent fun _ _ hc => ?_) fun _ => ?_
  · obtain rfl : ch = '\'' := beq_iff_eq.mp hquote
    exact rel_map (takeSingle_twin hc hch) fun _ _ hp => hp.map (Token.scalar · .singleQuoted)
  refine rel_ite (fun hquote => h.readContent fun _ _ hc => ?_) fun _ => ?_
  · obtain rfl : ch = '"' := beq_iff_eq.mp hquote
    exact rel_map (takeDouble_twin hc hch) fun _ _ hp => hp.map (Token.scalar · .doubleQuoted)
  -- the three ways in which a plain scalar may begin
  refine rel_ite (fun hplain => ?_) fun _ => ?_
  · obtain ⟨hindicator, hgap⟩ : isIndicator ch = false ∧ isGap ch = false := by
      simpa using hplain
    obtain ⟨hflow, hsigns⟩ := Bool.or_eq_false_iff.mp hindicator
    have hsign : ∀ d ∈ "-?:#&*!|>'\"%@\x60".toList, ch ≠ d := by
      rintro d hd rfl
      rw [List.contains_iff_mem.mpr hd] at hsigns
      cases hsigns
    have hcolon : (ch == ':') = false := beq_false_of_ne (hsign ':' (by decide))
    exact h.readPlain_of_start hch hmark (hsign '#' (by decide)) (by rw [hgap, hbreak]; rfl)
      (by rw [hcolon]; rfl) hflow
  refine rel_ite (fun hplain => ?_) fun _ => ?_
  · obtain rfl : ch = '-' := beq_iff_eq.mp (Bool.and_eq_true_iff.mp hplain).1
    exact h.readPlain_of_start hch hmark (by decide) rfl rfl rfl
  refine rel_ite (fun hplain => ?_) fun _ => .none
  · obtain ⟨-, hfirst⟩ := Bool.and_eq_true_iff.mp hplain
    rcases Bool.or_eq_true_iff.mp hfirst with hfirst | hfirst
    · obtain rfl : ch = '?' := beq_iff_eq.mp hfirst
      exact h.readPlain_of_start hch hmark (by decide) rfl rfl rfl
    · obtain rfl : ch = ':' := beq_iff_eq.mp hfirst
      have hgap : gapOrEnd cs = false := by
        simp only [beq_self_eq_true, Bool.true_and, Bool.or_eq_true, not_or] at hcolon
        exact Bool.not_eq_true _ ▸ hcolon.2
      exact h.readPlain_of_start hch hmark (by decide) rfl (by rw [hgap]; rfl) rfl

end

end LexerTwin

/-! ### The whole text -/

/-- Past the blanks and the comment of a line, and a byte order mark at its start. -/
def pastBlanks (flow allowed : Bool) (c : Cursor) : Cursor :=
  let d := if c.column == 0 && c.rest.head? == some byteOrderMark then c.advance 1 else c
  (d.skipWhile fun ch => ch == ' ' || ((flow || !allowed) && ch == '\t')).skipComment

theorem skipToToken_eq {flow allowed : Bool} {n : Nat} {c : Cursor} :
    Lexer.skipToToken flow (n + 1) allowed c =
      if (pastBlanks flow allowed c).rest.head?.any isBreak then
        Lexer.skipToToken flow n (allowed || !flow) (pastBlanks flow allowed c).skipBreak
      else (allowed, pastBlanks flow allowed c) := rfl

section

variable {line : Nat} {shift : Int} {flow : Bool}

theorem pastBlanks_twin {allowed : Bool} {c c' : Cursor} (h : Twin room line shift c c') :
    Twin room line shift (pastBlanks flow allowed c) (pastBlanks flow allowed c') := by
  have hmark : Twin room line shift
      (if c.column == 0 && c.rest.head? == some byteOrderMark then c.advance 1 else c)
      (if c'.column == 0 && c'.rest.head? == some byteOrderMark then c'.advance 1 else c') := by
    rw [h.column_eq, h.head?_beq (by decide) (by decide)]
    split
    · next hstart =>
      have hhead : c.rest.head? = some byteOrderMark := by
        simpa using (Bool.and_eq_true_iff.mp hstart).2
      obtain ⟨cs, hcs⟩ := List.head?_eq_some_iff.mp hhead
      exact (h.advance_one hcs (by decide)).mono (Nat.sub_le room 1)
    · exact h
  exact (hmark.skipWhile (by simp) (by simp)).skipComment

/-- The same is skipped before a token, and no line end stands at it. -/
theorem skipToToken_twin : ∀ {n m room : Nat} {allowed : Bool} {c c' : Cursor},
    Twin room line shift c c' → room < n → room < m →
    Beside (Twin room line shift) (Lexer.skipToToken flow n allowed c)
        (Lexer.skipToToken flow m allowed c') ∧
      (Lexer.skipToToken flow n allowed c).2.rest.head?.any isBreak = false
  | 0, _, _, _, _, _, _, hn, _ => absurd hn (Nat.not_lt_zero _)
  | _ + 1, 0, _, _, _, _, _, _, hm => absurd hm (Nat.not_lt_zero _)
  | n + 1, m + 1, room, allowed, c, c', h, hn, hm => by
    have hskipped : Twin room line shift (pastBlanks flow allowed c) (pastBlanks flow allowed c') :=
      pastBlanks_twin h
    rw [skipToToken_eq, skipToToken_eq, hskipped.head?_any rfl]
    split
    · next hbreak =>
      have hnext := (hskipped.takeBreak_of_isBreak hbreak).snd
      have hroom := hskipped.room_pos_of_head? hbreak
      have hless : room - 1 < n ∧ room - 1 < m := by omega
      obtain ⟨htwin, hhead⟩ := skipToToken_twin hnext hless.1 hless.2
      exact ⟨htwin.imp fun _ _ hd => hd.mono (Nat.sub_le room 1), hhead⟩
    · next hbreak => exact ⟨.mk hskipped, Bool.eq_false_iff.mpr hbreak⟩

end

/-- What is skipped before the next token, and whether a key may begin there. -/
def skipped (s : Lexer) : Bool × Cursor :=
  Lexer.skipToToken s.inFlow s.cursor.fuel s.keyAllowed s.cursor

/-- The lexer before the next token. -/
def atToken (s : Lexer) : Lexer := { s with keyAllowed := (skipped s).1 }.moveTo (skipped s).2

theorem atToken_twin {s s' : Lexer} (h : LexerTwin room s s') :
    LexerTwin room (atToken s) (atToken s') ∧
      (atToken s).cursor.rest.head?.any isBreak = false := by
  obtain ⟨line, shift, hcursor⟩ := h.cursor
  have hskip : ∀ line shift, Twin room line shift s.cursor s'.cursor →
      Beside (Twin room line shift) (skipped s) (skipped s') ∧
        (skipped s).2.rest.head?.any isBreak = false := by
    intro line shift hc
    unfold skipped
    rw [h.inFlow_eq, h.keyAllowed_eq]
    obtain ⟨htwin, hhead⟩ := skipToToken_twin hc.tight hc.lt_fuel.1 hc.lt_fuel.2
    exact ⟨htwin.imp fun _ _ hd => hd.mono hc.length_le, hhead⟩
  obtain ⟨htwin, hhead⟩ := hskip line shift hcursor
  unfold atToken
  rw [htwin.fst_eq]
  exact ⟨(h.allow _).moveTo fun line shift hc => (hskip line shift hc).1.snd, hhead⟩

theorem next_eq (s : Lexer) : s.next = (atToken s).dropStale.bind fun t =>
    match (atToken s).cursor.rest with
    | [] => (t.closeBlocks ((atToken s).cursor.column + 1)).readEnd
    | ch :: rest => (t.closeBlocks ((atToken s).cursor.column + 1)).readToken ch rest := rfl

/-- Both read on by a token, and end or have fewer characters left. -/
theorem next_twin {s s' : Lexer} (h : LexerTwin room s s') :
    Option.Rel (fun t t' => ∃ left, LexerTwin left t t' ∧ (t.finished = true ∨ left < room))
      s.next s'.next := by
  obtain ⟨htoken, hbreak⟩ := atToken_twin h
  obtain ⟨line, shift, hcursor⟩ := htoken.cursor
  rw [next_eq, next_eq, htoken.column_eq]
  refine rel_bind htoken.dropStale ?_
  rintro t t' ⟨ht, hc, -⟩
  have hclosed := ht.closeBlocks ((atToken s).cursor.column + 1)
  rcases hcursor.cases with ⟨e, e'⟩ | ⟨cs, e, e'⟩ | ⟨ch, cs, hn, hr, e, e'⟩
  · rw [e, e']
    exact rel_imp hclosed.readEnd fun u u' hu => ⟨room, hu.1, .inl hu.2⟩
  · rw [e] at hbreak
    cases hbreak
  · have hroom := hcursor.room_pos (by rw [e]; exact List.cons_ne_nil _ _)
    have hch : (t.closeBlocks ((atToken s).cursor.column + 1)).cursor.rest = ch :: cs := by
      rw [LexerTwin.closeBlocks_cursor, hc, e]
    rw [e] at hbreak
    rw [e, e']
    exact rel_imp (hclosed.readToken hch hbreak) fun u u' hu =>
      ⟨room - 1, hu, .inr (Nat.sub_lt hroom Nat.one_pos)⟩

theorem run_eq {n ready : Nat} (s : Lexer) : Lexer.run 0 (n + 1) ready s =
    s.dropStale.elim (s.readySoFar ready) fun t =>
      if t.finished then t.read.reverse
      else t.next.elim (t.readySoFar t.ready) fun u => Lexer.run 0 n t.ready u := by
  rw [Lexer.run]
  cases s.dropStale with
  | none => rfl
  | some t =>
    have hall : t.next.filter (fun u => u.cursor.has 0) = t.next := by
      cases t.next <;> rfl
    dsimp only [Option.elim_some]
    rw [hall]
    cases t.next <;> rfl

theorem readySoFar_eq {s s' : Lexer} (h : LexerTwin room s s') (ready : Nat) :
    s'.readySoFar ready = s.readySoFar ready := by
  unfold Lexer.readySoFar
  rw [h.read_eq, h.count_eq]

theorem run_twin : ∀ {n m room ready : Nat} {s s' : Lexer}, LexerTwin room s s' →
    (s.finished = true ∨ room + 1 < n) → (s.finished = true ∨ room + 1 < m) → 0 < n → 0 < m →
    Lexer.run 0 m ready s' = Lexer.run 0 n ready s
  | 0, _, _, _, _, _, _, _, _, hn, _ => absurd hn (Nat.lt_irrefl 0)
  | _ + 1, 0, _, _, _, _, _, _, _, _, hm => absurd hm (Nat.lt_irrefl 0)
  | n + 1, m + 1, room, ready, s, s', h, hn, hm, _, _ => by
    rw [run_eq, run_eq]
    have hstale := h.dropStale
    cases hs : s.dropStale with
    | none =>
      rw [hs] at hstale
      rw [eq_none_of_rel_none hstale]
      exact readySoFar_eq h ready
    | some t =>
      rw [hs] at hstale
      obtain ⟨t', ht', ht, -, hfinished⟩ := exists_of_rel_some hstale
      rw [ht', Option.elim_some, Option.elim_some, ht.finished_eq, ht.read_eq]
      split
      · rfl
      · next hgo =>
        have hroom := hn.resolve_left (hfinished ▸ hgo)
        have hroom' := hm.resolve_left (hfinished ▸ hgo)
        have hread := next_twin ht
        cases hnext : t.next with
        | none =>
          rw [hnext] at hread
          rw [eq_none_of_rel_none hread, Option.elim_none, Option.elim_none,
            ht.ready_eq]
          exact readySoFar_eq ht t.ready
        | some u =>
          rw [hnext] at hread
          obtain ⟨u', hu', left, hu, hleft⟩ := exists_of_rel_some hread
          rw [hu', Option.elim_some, Option.elim_some, ht.ready_eq]
          exact run_twin hu (hleft.imp_right fun _ => by omega) (hleft.imp_right fun _ => by omega)
            (by omega) (by omega)

/-- **A text has the same tokens with both kinds of line ends.** -/
theorem tokens_crlf {text : List Char} (hplain : '\r' ∉ text)
    (hallowed : text.all isAllowed = true) : tokens (crlf text) = tokens text := by
  have hstart : LexerTwin text.length (Lexer.start text) (Lexer.start (crlf text)) :=
    { cursor := ⟨0, 0, rfl, hplain, rfl, rfl, Nat.le_refl _, Nat.le_refl _, fun _ => rfl⟩
      key := .none
      outerKeys := .nil
      read_eq := rfl
      count_eq := rfl
      margins_eq := rfl
      keyAllowed_eq := rfl
      finished_eq := rfl }
  have hlength := Text.length_le_length_crlf text
  have hfuel : ∀ cs : List Char, (Lexer.start cs).cursor.fuel = cs.length + 1 := fun _ => rfl
  unfold tokens
  simp only [Text.all_crlf (p := isAllowed) rfl, hallowed, if_true, hfuel]
  exact run_twin hstart (.inr (by omega)) (.inr (by omega)) (Nat.succ_pos _) (Nat.succ_pos _)

end Yaml
end SitePlan
