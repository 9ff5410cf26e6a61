/-
# Scalars and both kinds of line ends

A scalar has the same text, whichever line ends it is written with: every reader of scalars
and of the white space inside them gives the same from twins, and goes on at twins. The
bounds on the number of steps may differ, as long as they exceed the number of characters
that are left.

Key definitions: `Yaml.RunEnd`.
Key theorems: `Yaml.takeFrom_twin`, `Yaml.takePlain_twin`, `Yaml.takeSingle_twin`,
`Yaml.takeDouble_twin`.
-/
import SitePlan.Proofs.Yaml.LineEnds.Cursor
import SitePlan.Yaml.Token.Scalar

namespace SitePlan
namespace Yaml

open Text (crlf)
open Outcome (rel_bind rel_imp)

variable {room line : Nat} {shift : Int} {c c' : Cursor}

/-! ### White space -/

/-- Past one blank or line end, given how it goes on from there. -/
theorem takeFrom_step {margin n m : Nat} (h : Twin room line shift c c')
    (hspace : c.rest.head?.any (fun ch => isGap ch || isBreak ch) = true)
    (hnext : ∀ gap d d', Twin (room - 1) line shift d d' →
      Option.Rel (Beside (Twin (room - 1) line shift)) (Gap.takeFrom margin n gap d)
        (Gap.takeFrom margin m gap d')) (gap : Gap) :
    Option.Rel (Beside (Twin (room - 1) line shift)) (Gap.takeFrom margin (n + 1) gap c)
      (Gap.takeFrom margin (m + 1) gap c') := by
  have hbreak : ∀ {ch ch' : Char} {cs cs' : List Char}, c.rest = ch :: cs → c'.rest = ch' :: cs' →
      isGap ch = false → isGap ch' = false → isBreak ch = true → isBreak ch' = true →
      Option.Rel (Beside (Twin (room - 1) line shift)) (Gap.takeFrom margin (n + 1) gap c)
        (Gap.takeFrom margin (m + 1) gap c') := by
    intro ch ch' cs cs' e e' hgap hgap' hb hb'
    have hrest := h.takeBreak_of_isBreak (by rw [e]; exact hb)
    simp only [Gap.takeFrom, e, e', hgap, hgap', hb, hb', Bool.false_eq_true, if_false, if_true]
    rw [hrest.fst_eq]
    cases gap with
    | blanks cs => exact hnext _ _ _ hrest.snd
    | lines first more => exact hnext _ _ _ hrest.snd
  rcases h.cases with ⟨e, e'⟩ | ⟨cs, e, e'⟩ | ⟨ch, cs, hn, hr, e, e'⟩
  · rw [e] at hspace
    cases hspace
  · exact hbreak e e' rfl rfl rfl rfl
  · by_cases hgap : isGap ch = true
    · have hone := h.advance_one e hn
      simp only [Gap.takeFrom, e, e', hgap, if_true, h.column_eq]
      cases gap with
      | blanks cs => exact hnext _ _ _ hone
      | lines first more =>
        dsimp only
        split
        · exact .none
        · exact hnext _ _ _ hone
    · rw [e] at hspace
      have hgap := Bool.not_eq_true _ ▸ hgap
      have hb : isBreak ch = true := by simpa [hgap] using hspace
      exact hbreak e e' hgap hgap hb hb

theorem takeFrom_twin {margin : Nat} : ∀ {n m room : Nat} {gap : Gap} {c c' : Cursor},
    Twin room line shift c c' → room < n → room < m →
    Option.Rel (Beside (Twin room line shift)) (Gap.takeFrom margin n gap c)
      (Gap.takeFrom margin m gap c')
  | 0, _, _, _, _, _, _, hn, _ => absurd hn (Nat.not_lt_zero _)
  | _ + 1, 0, _, _, _, _, _, _, hm => absurd hm (Nat.not_lt_zero _)
  | n + 1, m + 1, room, gap, c, c', h, hn, hm => by
    by_cases hspace : c.rest.head?.any (fun ch => isGap ch || isBreak ch) = true
    · have hroom := h.room_pos_of_head? hspace
      exact Twin.widen (takeFrom_step h hspace (fun gap d d' hd =>
        takeFrom_twin hd (by omega) (by omega)) gap) (Nat.sub_le room 1)
    · rcases h.cases with ⟨e, e'⟩ | ⟨cs, e, e'⟩ | ⟨ch, cs, hcn, hcr, e, e'⟩
      · simp only [Gap.takeFrom, e, e']
        exact .some (.mk h)
      · rw [e] at hspace
        exact absurd rfl hspace
      · rw [e] at hspace
        obtain ⟨hgap, hbreak⟩ : isGap ch = false ∧ isBreak ch = false := by simpa using hspace
        simp only [Gap.takeFrom, e, e', hgap, hbreak, Bool.false_eq_true, if_false]
        exact .some (.mk h)

theorem take_twin (margin : Nat) (gap : Gap) (h : Twin room line shift c c') :
    Option.Rel (Beside (Twin room line shift)) (Gap.take margin gap c) (Gap.take margin gap c') :=
  Twin.widen (takeFrom_twin h.tight h.lt_fuel.1 h.lt_fuel.2) h.length_le

/-- Where white space stands, fewer characters are left after it. -/
theorem take_twin_of_space (margin : Nat) (gap : Gap) (h : Twin room line shift c c')
    (hspace : c.rest.head?.any (fun ch => isGap ch || isBreak ch) = true) :
    Option.Rel (Beside (Twin (room - 1) line shift)) (Gap.take margin gap c)
      (Gap.take margin gap c') := by
  have hpos := h.tight.room_pos_of_head? hspace
  have hlength := h.length_le
  obtain ⟨hn, hm⟩ := h.lt_fuel
  refine Twin.widen (takeFrom_step h.tight hspace (fun gap d d' hd => ?_) gap)
    (Nat.sub_le_sub_right hlength 1)
  exact takeFrom_twin hd (by omega) (by unfold Cursor.fuel at hm; omega)

/-! ### Plain scalars -/

theorem plainRun_crlf (flow : Bool) : ∀ cs : List Char,
    Scalar.plainRun flow (crlf cs) = Scalar.plainRun flow cs
  | [] => rfl
  | ch :: cs => by
    by_cases hn : ch = '\n'
    · subst hn
      rfl
    · have hhead : (crlf cs).head?.any (fun d => isFlowMark d || d == '?') =
          cs.head?.any (fun d => isFlowMark d || d == '?') := Text.head?_crlf_any rfl cs
      rw [Text.crlf_cons hn, Scalar.plainRun, Scalar.plainRun, plainRun_crlf flow cs, hhead,
        gapOrEnd_crlf]

/-- The characters of a plain scalar begin the text, and none of them ends a line. -/
theorem plainRun_prefix {flow : Bool} : ∀ {cs run : List Char},
    Scalar.plainRun flow cs = some run → run <+: cs ∧ '\n' ∉ run
  | [], run, h => by
    cases h
    exact ⟨List.prefix_rfl, List.not_mem_nil⟩
  | ch :: cs, run, h => by
    rw [Scalar.plainRun] at h
    split at h
    · cases h
      exact ⟨List.nil_prefix, List.not_mem_nil⟩
    · next hspace =>
      split at h
      · cases h
      · split at h
        · cases h
          exact ⟨List.nil_prefix, List.not_mem_nil⟩
        · obtain ⟨more, hmore, rfl⟩ := Option.map_eq_some_iff.mp h
          obtain ⟨hbegins, hn⟩ := plainRun_prefix hmore
          refine ⟨List.cons_prefix_cons.mpr ⟨rfl, hbegins⟩, ?_⟩
          rw [List.mem_cons, not_or]
          refine ⟨?_, hn⟩
          rintro rfl
          exact hspace rfl

/-- Past the characters of a plain scalar up to the next white space, and past that, given how
it goes on from there. -/
theorem plainFrom_step {flow : Bool} {margin n m : Nat} (h : Twin room line shift c c')
    (hmark : (c.atDocumentMark || c.rest.head? == some '#') = false)
    (hrun : Scalar.plainRun flow c.rest ≠ some [])
    (hnext : ∀ gap d d', Twin (room - 1) line shift d d' →
      Option.Rel (Beside (Beside (Twin (room - 1) line shift)))
        (Scalar.plainFrom flow margin n gap d) (Scalar.plainFrom flow margin m gap d'))
    (gap : Gap) : Option.Rel (Beside (Beside (Twin (room - 1) line shift)))
      (Scalar.plainFrom flow margin (n + 1) gap c)
      (Scalar.plainFrom flow margin (m + 1) gap c') := by
  rw [Scalar.plainFrom, Scalar.plainFrom, h.atDocumentMark, h.head?_beq (by decide) (by decide),
    hmark, h.rest, plainRun_crlf]
  simp only [Bool.false_eq_true, if_false]
  cases hfound : Scalar.plainRun flow c.rest with
  | none => exact .none
  | some run =>
    obtain ⟨hbegins, hnewline⟩ := plainRun_prefix hfound
    have htake : c.rest.take run.length = run := (List.prefix_iff_eq_take.mp hbegins).symm
    have hne : run ≠ [] := by
      rintro rfl
      exact hrun hfound
    have hpos := List.length_pos_of_ne_nil hne
    have hlength := h.length_le
    have hafter : Twin (room - 1) line shift (c.advance run.length) (c'.advance run.length) :=
      h.advance (by rwa [htake]) (by omega)
    have hempty : ¬ run.isEmpty = true := by simpa using hne
    simp only [Option.bind_eq_bind, Option.bind_some, if_neg hempty, hafter.gapOrEnd_eq,
      hafter.isEmpty]
    split
    · exact .some (.mk (.mk hafter))
    · refine rel_bind (take_twin margin (.blanks []) hafter) ?_
      rintro ⟨gap, d⟩ ⟨gap', d'⟩ ⟨hd⟩
      simp only [hd.column_eq]
      split
      · exact .some (.mk (.mk hd))
      · refine rel_bind (hnext gap d d' hd) ?_
        rintro ⟨more, stopped, e⟩ ⟨more', stopped', e'⟩ ⟨⟨he⟩⟩
        exact .some (.mk (.mk he))

theorem plainFrom_twin {flow : Bool} {margin : Nat} :
    ∀ {n m room : Nat} {gap : Gap} {c c' : Cursor}, Twin room line shift c c' → room < n →
    room < m → Option.Rel (Beside (Beside (Twin room line shift)))
      (Scalar.plainFrom flow margin n gap c) (Scalar.plainFrom flow margin m gap c')
  | 0, _, _, _, _, _, _, hn, _ => absurd hn (Nat.not_lt_zero _)
  | _ + 1, 0, _, _, _, _, _, _, hm => absurd hm (Nat.not_lt_zero _)
  | n + 1, m + 1, room, gap, c, c', h, hn, hm => by
    by_cases hmark : (c.atDocumentMark || c.rest.head? == some '#') = true
    · rw [Scalar.plainFrom, Scalar.plainFrom, h.atDocumentMark,
        h.head?_beq (by decide) (by decide), if_pos hmark, if_pos hmark]
      exact .some (.mk (.mk h))
    · by_cases hrun : Scalar.plainRun flow c.rest = some []
      · have hrun' : Scalar.plainRun flow c'.rest = some [] := by
          rw [h.rest, plainRun_crlf, hrun]
        rw [Scalar.plainFrom, Scalar.plainFrom, h.atDocumentMark,
          h.head?_beq (by decide) (by decide), if_neg hmark, if_neg hmark, hrun, hrun']
        exact .some (.mk (.mk h))
      · have hroom : 0 < room := h.room_pos fun hnil => hrun (by rw [hnil]; rfl)
        refine rel_imp (plainFrom_step h (Bool.not_eq_true _ ▸ hmark) hrun
          (fun gap d d' hd => plainFrom_twin hd (by omega) (by omega)) gap) ?_
        exact fun p p' hp => hp.imp fun q q' hq => hq.imp fun d d' hd =>
          hd.mono (Nat.sub_le room 1)

theorem takePlain_twin {flow : Bool} {margin : Nat} (h : Twin room line shift c c')
    (hmark : (c.atDocumentMark || c.rest.head? == some '#') = false)
    (hrun : Scalar.plainRun flow c.rest ≠ some []) :
    Option.Rel (Beside (Beside (Twin (room - 1) line shift))) (Scalar.takePlain flow margin c)
      (Scalar.takePlain flow margin c') := by
  have hlength := h.length_le
  have hpos : 0 < c.rest.length :=
    List.length_pos_of_ne_nil fun hnil => hrun (by rw [hnil]; rfl)
  obtain ⟨hn, hm⟩ := h.lt_fuel
  refine rel_imp (plainFrom_step h.tight hmark hrun (fun gap d d' hd => ?_) (.blanks [])) ?_
  · exact plainFrom_twin hd (by omega) (by unfold Cursor.fuel at hm; omega)
  · exact fun p p' hp => hp.imp fun q q' hq => hq.imp fun d d' hd => hd.mono (by omega)

/-! ### Scalars between quotes -/

theorem singleRun_cons {ch : Char} {cs : List Char} (h : ∀ more, ch = '\'' → cs ≠ '\'' :: more) :
    Scalar.singleRun (ch :: cs) =
      if ch == '\'' || isGap ch || isBreak ch then ([], 0)
      else (ch :: (Scalar.singleRun cs).1, (Scalar.singleRun cs).2 + 1) := by
  rw [Scalar.singleRun.eq_def]
  split
  · next heq =>
    obtain ⟨hch, hcs⟩ := List.cons.inj heq
    exact absurd hcs (h _ hch)
  · next heq =>
    obtain ⟨rfl, rfl⟩ := List.cons.inj heq
    rfl
  · next heq => cases heq

theorem not_quote_crlf {ch : Char} {cs : List Char} (h : ∀ more, ch = '\'' → cs ≠ '\'' :: more) :
    ∀ more, ch = '\'' → crlf cs ≠ '\'' :: more := by
  intro more hch heq
  obtain ⟨cs', hcs, -⟩ := (Text.crlf_eq_cons (by decide) (by decide)).mp heq
  exact h cs' hch hcs

theorem singleRun_crlf (cs : List Char) :
    Scalar.singleRun (crlf cs) = Scalar.singleRun cs := by
  induction cs using Scalar.singleRun.induct with
  | case1 cs run n hrun ih =>
    rw [Text.crlf_cons (by decide), Text.crlf_cons (by decide), Scalar.singleRun, Scalar.singleRun,
      ih]
  | case2 ch cs hpair hstop =>
    by_cases hn : ch = '\n'
    · subst hn
      rfl
    · rw [Text.crlf_cons hn, singleRun_cons (not_quote_crlf hpair), singleRun_cons hpair,
        if_pos hstop, if_pos hstop]
  | case3 ch cs hpair hgo run n hrun ih =>
    have hn : ch ≠ '\n' := by
      rintro rfl
      exact hgo rfl
    rw [Text.crlf_cons hn, singleRun_cons (not_quote_crlf hpair), singleRun_cons hpair, ih]
  | case4 => rfl

/-- None of the characters ends a line, and there is one unless a quote, white space or the end
stands here. -/
theorem singleRun_end (cs : List Char) : '\n' ∉ cs.take (Scalar.singleRun cs).2 ∧
    ((Scalar.singleRun cs).2 = 0 →
      cs.head?.all (fun ch => ch == '\'' || isGap ch || isBreak ch) = true) := by
  induction cs using Scalar.singleRun.induct with
  | case1 cs run n hrun ih =>
    rw [Scalar.singleRun, hrun] at *
    simpa using ih.1
  | case2 ch cs hpair hstop =>
    rw [singleRun_cons hpair, if_pos hstop]
    exact ⟨List.not_mem_nil, fun _ => hstop⟩
  | case3 ch cs hpair hgo run n hrun ih =>
    rw [singleRun_cons hpair, if_neg hgo]
    refine ⟨?_, fun h => absurd h (Nat.succ_ne_zero _)⟩
    rw [List.take_succ_cons, List.mem_cons, not_or]
    refine ⟨?_, ih.1⟩
    rintro rfl
    exact hgo rfl
  | case4 => exact ⟨List.not_mem_nil, fun _ => rfl⟩

/-- The character for what follows a backslash, and how many characters it takes with it. -/
def escaped? (e : Char) (rest : List Char) : Option (Char × Nat) :=
  match Scalar.escapeChar? e, Scalar.escapeWidth? e with
  | some ch, _ => some (ch, 2)
  | none, some width =>
    if rest.length < width then none
    else (Scalar.charOfHex? (rest.take width)).map fun ch => (ch, width + 2)
  | none, none => none

section

variable {n : Nat} {ch e : Char} {cs : List Char}

theorem doubleRun_end (h : c.rest = []) : Scalar.doubleRun (n + 1) c = some ([], false, c) := by
  rw [Scalar.doubleRun, h]

theorem doubleRun_backslash (h : c.rest = ['\\']) : Scalar.doubleRun (n + 1) c = none := by
  rw [Scalar.doubleRun, h]
  rfl

theorem doubleRun_escape (h : c.rest = '\\' :: e :: cs) : Scalar.doubleRun (n + 1) c =
    if isBreak e then some ([], true, (c.advance 1).skipBreak)
    else (escaped? e cs).bind fun p =>
      (Scalar.doubleRun n (c.advance p.2)).bind fun q => some (p.1 :: q.1, q.2.1, q.2.2) := by
  rw [Scalar.doubleRun, h]
  split
  · next heq =>
    obtain ⟨rfl, rfl⟩ := List.cons.inj (List.cons.inj heq).2
    congr 1
    unfold escaped?
    cases Scalar.escapeChar? e with
    | some ch => rfl
    | none =>
      cases Scalar.escapeWidth? e with
      | none => rfl
      | some width =>
        dsimp only
        split <;> rfl
  · next heq => cases (List.cons.inj heq).2
  · next hpair _ heq =>
    obtain ⟨hch, htail⟩ := List.cons.inj heq
    exact (hpair e cs hch.symm htail.symm).elim
  · next heq => cases heq

theorem doubleRun_char (h : c.rest = ch :: cs) (hch : ch ≠ '\\') :
    Scalar.doubleRun (n + 1) c =
      if ch == '"' || isGap ch || isBreak ch then some ([], false, c)
      else (Scalar.doubleRun n (c.advance 1)).bind fun q => some (ch :: q.1, q.2.1, q.2.2) := by
  rw [Scalar.doubleRun, h]
  split
  · next heq => exact absurd (List.cons.inj heq).1 hch
  · next heq => exact absurd (List.cons.inj heq).1 hch
  · next heq =>
    obtain ⟨rfl, rfl⟩ := List.cons.inj heq
    rfl
  · next heq => cases heq

end

/-- What is read as a number is digits. -/
theorem isSome_of_charOfHex? {digits : List Char} {ch : Char}
    (h : Scalar.charOfHex? digits = some ch) : ∀ d ∈ digits, (hexValue? d).isSome = true := by
  unfold Scalar.charOfHex? at h
  obtain ⟨values, hvalues, -⟩ := Option.bind_eq_some_iff.mp h
  clear h
  induction digits generalizing values with
  | nil => exact List.forall_mem_nil _
  | cons d digits ih =>
    rw [List.mapM_cons] at hvalues
    obtain ⟨value, hvalue, hmore⟩ := Option.bind_eq_some_iff.mp hvalues
    obtain ⟨more, hmore, -⟩ := Option.bind_eq_some_iff.mp hmore
    exact List.forall_mem_cons.mpr ⟨Option.isSome_of_eq_some hvalue, ih more hmore⟩

theorem charOfHex?_eq_none {digits : List Char} {d : Char} (hd : d ∈ digits)
    (h : hexValue? d = none) : Scalar.charOfHex? digits = none := by
  cases heq : Scalar.charOfHex? digits with
  | none => rfl
  | some ch =>
    have hdigit := isSome_of_charOfHex? heq d hd
    rw [h] at hdigit
    cases hdigit

theorem escaped?_crlf (e : Char) (cs : List Char) : escaped? e (crlf cs) = escaped? e cs := by
  unfold escaped?
  cases Scalar.escapeChar? e with
  | some ch => rfl
  | none =>
    cases Scalar.escapeWidth? e with
    | none => rfl
    | some width =>
      dsimp only
      by_cases hn : '\n' ∈ cs.take width
      · rw [charOfHex?_eq_none hn rfl, charOfHex?_eq_none (Text.return_mem_take_crlf hn) rfl]
        simp
      · rw [Text.take_crlf hn]
        by_cases hshort : cs.length < width
        · have hsame : crlf cs = cs := by
            rw [List.take_of_length_le (Nat.le_of_lt hshort)] at hn
            exact Text.crlf_of_not_mem hn
          rw [hsame]
        · have hlong : ¬ (crlf cs).length < width := fun h =>
            hshort (Nat.lt_of_le_of_lt (Text.length_le_length_crlf cs) h)
          rw [if_neg hshort, if_neg hlong]

/-- Characters that a backslash takes with it end no line. -/
theorem escaped?_take {e ch : Char} {k : Nat} {cs : List Char} (he : e ≠ '\n')
    (h : escaped? e cs = some (ch, k)) : '\n' ∉ ('\\' :: e :: cs).take k ∧ 2 ≤ k := by
  have hpair : ∀ {more : List Char}, '\n' ∉ more → '\n' ∉ '\\' :: e :: more := by
    intro more hmore
    simp [Ne.symm he, hmore]
  unfold escaped? at h
  cases hchar : Scalar.escapeChar? e with
  | some ch' =>
    rw [hchar] at h
    cases h
    exact ⟨hpair List.not_mem_nil, Nat.le_refl 2⟩
  | none =>
    cases hwidth : Scalar.escapeWidth? e with
    | none =>
      rw [hchar, hwidth] at h
      cases h
    | some width =>
      rw [hchar, hwidth] at h
      obtain ⟨-, h⟩ := Option.ite_none_left_eq_some.mp h
      obtain ⟨ch', hch', heq⟩ := Option.map_eq_some_iff.mp h
      cases heq
      refine ⟨hpair fun hn => ?_, Nat.le_add_left 2 width⟩
      rw [charOfHex?_eq_none hn rfl] at hch'
      cases hch'

/-- Where reading between quotes stopped: past a character, or at a quote, white space or the
end. -/
structure RunEnd (quote : Char) (room line : Nat) (shift : Int) (c c' : Cursor) : Prop where
  twin : Twin room line shift c c'
  moved : c.rest.length < room ∨
    c.rest.head?.all (fun ch => ch == quote || isGap ch || isBreak ch) = true

theorem RunEnd.of_less {quote : Char} (hroom : 0 < room)
    (h : Twin (room - 1) line shift c c') : RunEnd quote room line shift c c' :=
  ⟨h.mono (Nat.sub_le room 1), .inl (Nat.lt_of_le_sub_one hroom h.length_le)⟩

/-- Between double quotes the same characters are read up to the same place. -/
theorem doubleRun_twin : ∀ {n m room : Nat} {c c' : Cursor}, Twin room line shift c c' →
    room < n → room < m → Option.Rel (Beside (Beside (RunEnd '"' room line shift)))
      (Scalar.doubleRun n c) (Scalar.doubleRun m c')
  | 0, _, _, _, _, _, hn, _ => absurd hn (Nat.not_lt_zero _)
  | _ + 1, 0, _, _, _, _, _, hm => absurd hm (Nat.not_lt_zero _)
  | n + 1, m + 1, room, c, c', h, hn, hm => by
    -- past at least one character and on with the rest
    have hnext : ∀ (ch : Char) {d d' : Cursor}, 0 < room → Twin (room - 1) line shift d d' →
        Option.Rel (Beside (Beside (RunEnd '"' room line shift)))
          ((Scalar.doubleRun n d).bind fun q => some (ch :: q.1, q.2.1, q.2.2))
          ((Scalar.doubleRun m d').bind fun q => some (ch :: q.1, q.2.1, q.2.2)) := by
      intro ch d d' hroom hd
      refine rel_bind (doubleRun_twin hd (by omega) (by omega)) ?_
      rintro ⟨run, joined, e⟩ ⟨run', joined', e'⟩ ⟨⟨he⟩⟩
      exact .some (.mk (.mk (RunEnd.of_less hroom he.twin)))
    have hstop : ∀ {ch ch' : Char} {cs cs' : List Char}, c.rest = ch :: cs → c'.rest = ch' :: cs' →
        ch ≠ '\\' → ch' ≠ '\\' → (ch == '"' || isGap ch || isBreak ch) = true →
        (ch' == '"' || isGap ch' || isBreak ch') = true →
        Option.Rel (Beside (Beside (RunEnd '"' room line shift))) (Scalar.doubleRun (n + 1) c)
          (Scalar.doubleRun (m + 1) c') := by
      intro ch ch' cs cs' e e' hch hch' hstop hstop'
      rw [doubleRun_char e hch, doubleRun_char e' hch', if_pos hstop, if_pos hstop']
      exact .some (.mk (.mk ⟨h, .inr (by rw [e]; exact hstop)⟩))
    rcases h.cases with ⟨e, e'⟩ | ⟨cs, e, e'⟩ | ⟨ch, cs, hcn, hcr, e, e'⟩
    · rw [doubleRun_end e, doubleRun_end e']
      exact .some (.mk (.mk ⟨h, .inr (by rw [e]; rfl)⟩))
    · exact hstop e e' (by decide) (by decide) rfl rfl
    · have hroom : 0 < room := h.room_pos (by rw [e]; exact List.cons_ne_nil _ _)
      by_cases hch : ch = '\\'
      · subst hch
        cases cs with
        | nil =>
          rw [doubleRun_backslash e, doubleRun_backslash e']
          exact .none
        | cons d cs =>
          have hone := h.advance_one e hcn
          by_cases hd : d = '\n'
          · subst hd
            have hfeed : isBreak '\n' = true := rfl
            have hreturn : isBreak '\r' = true := rfl
            rw [doubleRun_escape e, doubleRun_escape e', if_pos hfeed, if_pos hreturn]
            exact .some (.mk (.mk (RunEnd.of_less hroom hone.skipBreak)))
          · rw [Text.crlf_cons hd] at e'
            rw [doubleRun_escape e, doubleRun_escape e', escaped?_crlf]
            split
            · exact .some (.mk (.mk (RunEnd.of_less hroom hone.skipBreak)))
            · cases hescaped : escaped? d cs with
              | none => exact .none
              | some p =>
                obtain ⟨htake, hpos⟩ := escaped?_take hd hescaped
                have hlength := h.length_le
                exact hnext p.1 hroom (h.advance (by rwa [e]) (by omega))
      · by_cases hquote : (ch == '"' || isGap ch || isBreak ch) = true
        · exact hstop e e' hch hch hquote hquote
        · rw [doubleRun_char e hch, doubleRun_char e' hch, if_neg hquote, if_neg hquote]
          exact hnext ch hroom (h.advance_one e hcn)

/-- Past white space that stands where a run stopped that no quote ended. -/
theorem RunEnd.take {quote : Char} {margin : Nat} (h : RunEnd quote room line shift c c')
    (hroom : 0 < room) (hquote : ¬ (c.rest.head? == some quote) = true) (gap : Gap) :
    Option.Rel (Beside (Twin (room - 1) line shift)) (Gap.take margin gap c)
      (Gap.take margin gap c') := by
  by_cases hless : c.rest.length < room
  · exact take_twin margin gap (h.twin.tight.mono (Nat.le_sub_one_of_lt hless))
  · have hstop := h.moved.resolve_left hless
    cases hc : c.rest with
    | nil =>
      rw [hc] at hless
      exact absurd hroom hless
    | cons ch cs =>
      refine take_twin_of_space margin gap h.twin ?_
      rw [hc] at hstop hquote ⊢
      have hne : ¬ ch = quote := by simpa using hquote
      simpa [hne] using hstop

/-- The quote that a scalar ends with. -/
def quoteOf (single : Bool) : Char := if single then '\'' else '"'

/-- The characters between quotes up to the next white space, quote or escaped line end. -/
def quotedRun (single : Bool) (c : Cursor) : Option (List Char × Bool × Cursor) :=
  if single then some ((Scalar.singleRun c.rest).1, false, c.advance (Scalar.singleRun c.rest).2)
  else Scalar.doubleRun c.fuel c

theorem quotedFrom_eq {single : Bool} {n : Nat} : Scalar.quotedFrom single (n + 1) c =
    if c.atDocumentMark || c.rest.isEmpty then none
    else (quotedRun single c).bind fun q =>
      if q.2.2.rest.head? == some (quoteOf single) then some (q.1, q.2.2.advance 1)
      else (Gap.take 0 (if q.2.1 then .lines [] [] else .blanks []) q.2.2).bind fun g =>
        (Scalar.quotedFrom single n g.2).bind fun r => some (q.1 ++ g.1.text ++ r.1, r.2) := by
  rw [Scalar.quotedFrom]
  cases single <;> rfl

theorem quotedRun_twin (single : Bool) (h : Twin room line shift c c') (hroom : 0 < room) :
    Option.Rel (Beside (Beside (RunEnd (quoteOf single) room line shift))) (quotedRun single c)
      (quotedRun single c') := by
  cases single with
  | false =>
    refine rel_imp (doubleRun_twin h.tight h.lt_fuel.1 h.lt_fuel.2) fun p p' hp =>
      hp.imp fun q q' hq => hq.imp fun d d' hd => ⟨hd.twin.mono h.length_le, ?_⟩
    exact hd.moved.imp (fun hless => Nat.lt_of_lt_of_le hless h.length_le) id
  | true =>
    obtain ⟨hnewline, hnone⟩ := singleRun_end c.rest
    have hlength := h.length_le
    unfold quotedRun
    rw [if_pos rfl, if_pos rfl, h.rest, singleRun_crlf]
    refine .some (.mk (.mk ?_))
    by_cases hzero : (Scalar.singleRun c.rest).2 = 0
    · have hsame : ∀ d : Cursor, d.advance 0 = d := fun d => rfl
      rw [hzero, hsame, hsame]
      exact ⟨h, .inr (hnone hzero)⟩
    · exact RunEnd.of_less hroom (h.advance hnewline (by omega))

theorem quotedFrom_twin {single : Bool} : ∀ {n m room : Nat} {c c' : Cursor},
    Twin room line shift c c' → room < n → room < m →
    Option.Rel (Beside (Twin room line shift)) (Scalar.quotedFrom single n c)
      (Scalar.quotedFrom single m c')
  | 0, _, _, _, _, _, hn, _ => absurd hn (Nat.not_lt_zero _)
  | _ + 1, 0, _, _, _, _, _, hm => absurd hm (Nat.not_lt_zero _)
  | n + 1, m + 1, room, c, c', h, hn, hm => by
    have hsign : quoteOf single ≠ '\n' ∧ quoteOf single ≠ '\r' := by cases single <;> decide
    rw [quotedFrom_eq, quotedFrom_eq, h.atDocumentMark, h.isEmpty]
    split
    · exact .none
    · next hgo =>
      have hne : c.rest ≠ [] := by
        intro hnil
        rw [hnil, List.isEmpty_nil, Bool.or_true] at hgo
        exact hgo rfl
      have hroom := h.room_pos hne
      refine rel_bind (quotedRun_twin single h hroom) ?_
      rintro ⟨run, joined, d⟩ ⟨run', joined', d'⟩ ⟨⟨hd⟩⟩
      simp only [hd.twin.head?_beq hsign.1 hsign.2]
      split
      · next hquote =>
        have hhead : d.rest.head? = some (quoteOf single) := beq_iff_eq.mp hquote
        obtain ⟨cs, hcs⟩ := List.head?_eq_some_iff.mp hhead
        exact .some (.mk ((hd.twin.advance_one hcs hsign.1).mono (Nat.sub_le room 1)))
      · next hquote =>
        refine rel_bind (hd.take hroom hquote _) ?_
        rintro ⟨gap, e⟩ ⟨gap', e'⟩ ⟨he⟩
        refine rel_bind (quotedFrom_twin he (by omega) (by omega)) ?_
        rintro ⟨more, e⟩ ⟨more', e'⟩ ⟨he⟩
        exact .some (.mk (he.mono (Nat.sub_le room 1)))

theorem quoted_twin {single : Bool} {cs : List Char} (h : Twin room line shift c c')
    (hc : c.rest = quoteOf single :: cs) : Option.Rel (Beside (Twin (room - 1) line shift))
      (Scalar.quotedFrom single c.fuel (c.advance 1))
      (Scalar.quotedFrom single c'.fuel (c'.advance 1)) := by
  have hsign : quoteOf single ≠ '\n' := by cases single <;> decide
  have hone := h.tight.advance_one hc hsign
  obtain ⟨hn, hm⟩ := h.lt_fuel
  exact Twin.widen (quotedFrom_twin hone (by omega) (by omega)) (Nat.sub_le_sub_right h.length_le 1)

theorem takeSingle_twin {cs : List Char} (h : Twin room line shift c c')
    (hc : c.rest = '\'' :: cs) : Option.Rel (Beside (Twin (room - 1) line shift))
      (Scalar.takeSingle c) (Scalar.takeSingle c') :=
  quoted_twin h hc

theorem takeDouble_twin {cs : List Char} (h : Twin room line shift c c')
    (hc : c.rest = '"' :: cs) : Option.Rel (Beside (Twin (room - 1) line shift))
      (Scalar.takeDouble c) (Scalar.takeDouble c') :=
  quoted_twin h hc

end Yaml
end SitePlan
