/-
# Names, tags and directives and both kinds of line ends

Anchors, tags and directives end before a line end, so they are the same whichever line
ends the text has. An escaped octet is three characters of one line.

Key definitions: `Yaml.Past`.
Key theorems: `Yaml.takeName_twin`, `Yaml.takeEscaped_past`, `Yaml.tagRun_crlf`,
`Yaml.takeTag_twin`, `Yaml.takeDirective_twin`.
-/
import SitePlan.Proofs.Yaml.LineEnds.Cursor
import SitePlan.Yaml.Token.Tag

namespace SitePlan
namespace Yaml

open Text (crlf)
open Outcome (rel_bind rel_imp eq_of_rel exists_of_rel_some)

variable {room line : Nat} {shift : Int} {c c' : Cursor}

theorem takeName_twin {ch : Char} {cs : List Char} (h : Twin room line shift c c')
    (hc : c.rest = ch :: cs) (hn : ch ≠ '\n') :
    Option.Rel (Beside (Twin (room - 1) line shift)) (takeName c) (takeName c') := by
  have hname := (h.advance_one hc hn).takeWhile (p := isWord) rfl rfl
  have hends := hname.snd.head?_any (p := fun d => "?:,]\x7d%@\x60".toList.contains d) rfl
  unfold takeName
  simp only [hname.fst_eq, hname.snd.gapOrEnd_eq, hends]
  split
  · exact .none
  · exact .some (.mk hname.snd)

/-! ### Escaped octets -/

/-- What is left after at least `least` characters of one line, and in the other text. -/
def Past (least : Nat) (cs rest rest' : List Char) : Prop :=
  ∃ taken, least ≤ taken.length ∧ '\n' ∉ taken ∧ cs = taken ++ rest ∧ rest' = crlf rest

theorem Past.trans {least : Nat} {cs ds ds' es es' : List Char} (h : Past least cs ds ds')
    (hnext : Past 0 ds es es') : Past least cs es es' := by
  obtain ⟨taken, hleast, hn, rfl, -⟩ := h
  obtain ⟨more, -, hn', rfl, rfl⟩ := hnext
  refine ⟨taken ++ more, ?_, ?_, (List.append_assoc _ _ _).symm, rfl⟩
  · rw [List.length_append]
    omega
  · rw [List.mem_append, not_or]
    exact ⟨hn, hn'⟩

theorem takeOctet_eq_some {cs rest : List Char} {octet : Nat} :
    takeOctet cs = some (octet, rest) ↔ ∃ h l high low, cs = '%' :: h :: l :: rest ∧
      hexValue? h = some high ∧ hexValue? l = some low ∧ octet = 16 * high + low := by
  constructor
  · intro heq
    unfold takeOctet at heq
    split at heq
    · next h l rest' =>
      cases hh : hexValue? h with
      | none =>
        rw [hh] at heq
        cases heq
      | some high =>
        cases hl : hexValue? l with
        | none =>
          rw [hh, hl] at heq
          cases heq
        | some low =>
          rw [hh, hl] at heq
          cases heq
          exact ⟨h, l, high, low, rfl, hh, hl, rfl⟩
    · cases heq
  · rintro ⟨h, l, high, low, rfl, hh, hl, rfl⟩
    unfold takeOctet
    simp only [hh, hl]

/-- A hexadecimal digit is part of no line end. -/
theorem ne_of_hexValue? {d : Char} {n : Nat} (h : hexValue? d = some n) : d ≠ '\n' ∧ d ≠ '\r' := by
  constructor <;> rintro rfl <;> cases h

theorem takeOctet_past (cs : List Char) :
    Option.Rel (Beside (Past 1 cs)) (takeOctet cs) (takeOctet (crlf cs)) := by
  cases heq : takeOctet cs with
  | some p =>
    obtain ⟨octet, rest⟩ := p
    obtain ⟨h, l, high, low, rfl, hh, hl, rfl⟩ := takeOctet_eq_some.mp heq
    have hhn := (ne_of_hexValue? hh).1
    have hln := (ne_of_hexValue? hl).1
    have hcrlf : takeOctet (crlf ('%' :: h :: l :: rest)) = some (16 * high + low, crlf rest) := by
      rw [Text.crlf_cons (by decide), Text.crlf_cons hhn, Text.crlf_cons hln]
      exact takeOctet_eq_some.mpr ⟨h, l, high, low, rfl, hh, hl, rfl⟩
    rw [hcrlf]
    have hline : '\n' ∉ ['%', h, l] := by simp [Ne.symm hhn, Ne.symm hln]
    exact .some (.mk ⟨['%', h, l], Nat.le_add_left 1 2, hline, rfl, rfl⟩)
  | none =>
    cases hcrlf : takeOctet (crlf cs) with
    | none => exact .none
    | some p =>
      obtain ⟨octet, rest⟩ := p
      obtain ⟨h, l, high, low, hcs, hh, hl, -⟩ := takeOctet_eq_some.mp hcrlf
      obtain ⟨hhn, hhr⟩ := ne_of_hexValue? hh
      obtain ⟨hln, hlr⟩ := ne_of_hexValue? hl
      obtain ⟨ds, rfl, hds⟩ := (Text.crlf_eq_cons (by decide) (by decide)).mp hcs
      obtain ⟨es, rfl, hes⟩ := (Text.crlf_eq_cons hhn hhr).mp hds.symm
      obtain ⟨fs, rfl, -⟩ := (Text.crlf_eq_cons hln hlr).mp hes.symm
      rw [takeOctet_eq_some.mpr ⟨h, l, high, low, rfl, hh, hl, rfl⟩] at heq
      cases heq

theorem takeOctets_past : ∀ (n value : Nat) (cs : List Char),
    Option.Rel (Beside (Past 0 cs)) (takeOctets n value cs) (takeOctets n value (crlf cs))
  | 0, value, cs => .some (.mk ⟨[], Nat.le_refl 0, List.not_mem_nil, rfl, rfl⟩)
  | n + 1, value, cs => by
    rw [takeOctets, takeOctets]
    refine rel_bind (takeOctet_past cs) ?_
    rintro ⟨octet, ds⟩ ⟨octet', ds'⟩ ⟨hds⟩
    dsimp only
    split
    · obtain ⟨taken, hleast, hn, hcs, rfl⟩ := hds
      refine rel_imp (takeOctets_past n _ ds) ?_
      rintro ⟨code, es⟩ ⟨code', es'⟩ ⟨hes⟩
      exact .mk (Past.trans ⟨taken, Nat.zero_le _, hn, hcs, rfl⟩ hes)
    · exact .none

/-- What the first octet of a character says: how many follow, and its own share. -/
def leading? (first : Nat) : Option (Nat × Nat) :=
  if first < 0x80 then some (0, first)
  else if first / 32 = 6 then some (1, first % 32)
  else if first / 16 = 14 then some (2, first % 16)
  else if first / 8 = 30 then some (3, first % 8)
  else none

theorem takeEscaped_eq (cs : List Char) : takeEscaped cs = (takeOctet cs).bind fun p =>
    (leading? p.1).bind fun q => (takeOctets q.1 q.2 p.2).bind fun r =>
      some (charOfOctets? (q.1 + 1) r.1, r.2) := by
  unfold takeEscaped
  refine congrArg (Option.bind _) (funext fun p => ?_)
  unfold leading?
  dsimp only
  split <;> try rfl
  split <;> try rfl
  split <;> try rfl
  split <;> rfl

theorem takeEscaped_past (cs : List Char) :
    Option.Rel (Beside (Past 1 cs)) (takeEscaped cs) (takeEscaped (crlf cs)) := by
  rw [takeEscaped_eq, takeEscaped_eq]
  refine rel_bind (takeOctet_past cs) ?_
  rintro ⟨first, ds⟩ ⟨first', ds'⟩ ⟨hds⟩
  have hrest := hds
  obtain ⟨-, -, -, -, rfl⟩ := hrest
  cases leading? first with
  | none => exact .none
  | some q =>
    simp only [Option.bind_some]
    refine rel_bind (takeOctets_past q.1 q.2 ds) ?_
    rintro ⟨code, es⟩ ⟨code', es'⟩ ⟨hes⟩
    exact .some (.mk (hds.trans hes))

/-! ### Tags -/

theorem tagRun_crlf {flowMarks : Bool} : ∀ {n m : Nat} {cs : List Char}, cs.length < n →
    cs.length < m → tagRun flowMarks m (crlf cs) = tagRun flowMarks n cs
  | 0, _, _, hn, _ => absurd hn (Nat.not_lt_zero _)
  | _ + 1, 0, _, _, hm => absurd hm (Nat.not_lt_zero _)
  | _ + 1, _ + 1, [], _, _ => rfl
  | n + 1, m + 1, ch :: cs, hn, hm => by
    rw [List.length_cons] at hn hm
    by_cases hc : ch = '\n'
    · subst hc
      rw [Text.crlf_newline, tagRun, tagRun]
      cases flowMarks <;> rfl
    · rw [Text.crlf_cons hc, tagRun, tagRun]
      split
      · refine eq_of_rel ?_
        have hescaped := takeEscaped_past (ch :: cs)
        rw [Text.crlf_cons hc] at hescaped
        refine rel_bind hescaped ?_
        rintro ⟨first, ds⟩ ⟨first', ds'⟩ ⟨taken, hleast, hnewline, hcs, rfl⟩
        -- as many characters are taken from both
        have hcs' : ch :: crlf cs = taken ++ crlf ds := by
          rw [← Text.crlf_cons hc, hcs, Text.crlf_append, Text.crlf_of_not_mem hnewline]
        have hlength := congrArg List.length hcs
        have hlength' := congrArg List.length hcs'
        simp only [List.length_cons, List.length_append] at hlength hlength'
        have hcount : (crlf cs).length + 1 - (crlf ds).length = cs.length + 1 - ds.length := by
          omega
        have ih : tagRun flowMarks m (crlf ds) = tagRun flowMarks n ds :=
          tagRun_crlf (by omega) (by omega)
        dsimp only
        rw [ih, hcount]
        cases tagRun flowMarks n ds with
        | none => exact .none
        | some p => exact .some rfl
      · have ih : tagRun flowMarks m (crlf cs) = tagRun flowMarks n cs :=
          tagRun_crlf (by omega) (by omega)
        rw [ih]

/-- None of the characters of a tag ends a line. -/
theorem tagRun_take {flowMarks : Bool} : ∀ {n k : Nat} {cs : List Char} {run : TagText},
    tagRun flowMarks n cs = some (run, k) → '\n' ∉ cs.take k
  | 0, _, _, _, h => by
    cases h
    exact List.not_mem_nil
  | _ + 1, _, [], _, _ => by simp
  | n + 1, k, ch :: cs, run, h => by
    rw [tagRun] at h
    split at h
    · obtain ⟨⟨first, ds⟩, hescaped, h⟩ := Option.bind_eq_some_iff.mp h
      obtain ⟨⟨more, l⟩, hmore, h⟩ := Option.bind_eq_some_iff.mp h
      cases h
      obtain ⟨p, -, hp⟩ := exists_of_rel_some (hescaped ▸ takeEscaped_past (ch :: cs))
      obtain ⟨taken, hleast, hn, hcs, -⟩ := hp.snd
      have ih := tagRun_take hmore
      have hlength := congrArg List.length hcs
      simp only [List.length_cons, List.length_append] at hlength
      have hcount : l + (cs.length + 1 - ds.length) = taken.length + l := by omega
      rw [hcount, hcs, List.take_length_add_append, List.mem_append, not_or]
      exact ⟨hn, ih⟩
    · split at h
      · next hchar =>
        obtain ⟨⟨more, l⟩, hmore, h⟩ := Option.bind_eq_some_iff.mp h
        cases h
        rw [List.take_succ_cons, List.mem_cons, not_or]
        refine ⟨?_, tagRun_take hmore⟩
        rintro rfl
        cases flowMarks <;> cases hchar
      · cases h
        exact List.not_mem_nil

theorem takeTagText_twin {flowMarks : Bool} (h : Twin room line shift c c') :
    Option.Rel (Beside (Beside (Twin room line shift))) (takeTagText flowMarks c)
      (takeTagText flowMarks c') := by
  unfold takeTagText
  rw [h.rest, tagRun_crlf h.lt_fuel.1 h.lt_fuel.2]
  cases hrun : tagRun flowMarks c.fuel c.rest with
  | none => exact .none
  | some p =>
    exact .some (.mk (.mk (h.advance (tagRun_take hrun)
      (Nat.le_trans h.length_le (Nat.le_add_right _ _)))))

theorem takeHandle_of_ne (h : c.rest.head? ≠ some '!') : takeHandle c = none := by
  unfold takeHandle
  split
  · next heq =>
    rw [heq] at h
    exact absurd rfl h
  · rfl

theorem takeHandle_cons {cs : List Char} (h : c.rest = '!' :: cs) : takeHandle c =
    if ((c.advance 1).takeWhile isWord).2.rest.head? = some '!' then
      some ('!' :: ((c.advance 1).takeWhile isWord).1 ++ ['!'],
        ((c.advance 1).takeWhile isWord).2.advance 1)
    else some ('!' :: ((c.advance 1).takeWhile isWord).1, ((c.advance 1).takeWhile isWord).2) := by
  unfold takeHandle
  rw [h]
  split
  · dsimp only
    split
    · next heq => rw [heq, if_pos (List.head?_cons)]
    · next hne =>
      rw [if_neg]
      intro hhead
      obtain ⟨cs, hcs⟩ := List.head?_eq_some_iff.mp hhead
      exact hne cs hcs
  · next hne => exact (hne cs rfl).elim

theorem takeHandle_twin (h : Twin room line shift c c') :
    Option.Rel (Beside (Twin (room - 1) line shift)) (takeHandle c) (takeHandle c') := by
  by_cases hmark : c.rest.head? = some '!'
  · obtain ⟨cs, hc⟩ := List.head?_eq_some_iff.mp hmark
    obtain ⟨cs', hc'⟩ := List.head?_eq_some_iff.mp
      ((h.head?_eq_some (by decide) (by decide)).mpr hmark)
    have hname := (h.advance_one hc (by decide)).takeWhile (p := isWord) rfl rfl
    rw [takeHandle_cons hc, takeHandle_cons hc', hname.fst_eq]
    by_cases hend : ((c.advance 1).takeWhile isWord).2.rest.head? = some '!'
    · have hend' := (hname.snd.head?_eq_some (by decide) (by decide)).mpr hend
      obtain ⟨ds, hds⟩ := List.head?_eq_some_iff.mp hend
      rw [if_pos hend, if_pos hend']
      exact .some (.mk ((hname.snd.advance_one hds (by decide)).mono (Nat.sub_le _ 1)))
    · have hend' := mt (hname.snd.head?_eq_some (by decide) (by decide)).mp hend
      rw [if_neg hend, if_neg hend']
      exact .some (.mk hname.snd)
  · rw [takeHandle_of_ne hmark,
      takeHandle_of_ne (mt (h.head?_eq_some (by decide) (by decide)).mp hmark)]
    exact .none

theorem takeTagParts_angle {cs : List Char} (h : c.rest = '!' :: '<' :: cs) : takeTagParts c =
    (takeTagText true (c.advance 2)).bind fun p =>
      if p.2.1 && p.2.2.rest.head? == some '>' then some ([], p.1, p.2.2.advance 1) else none := by
  unfold takeTagParts
  rw [h]
  rfl

theorem takeTagParts_handle (h : ∀ cs, c.rest ≠ '!' :: '<' :: cs) : takeTagParts c =
    (takeHandle c).bind fun p => (takeTagText false p.2).bind fun q =>
      if isNamedHandle p.1 then (if q.2.1 then some (p.1, q.1, q.2.2) else none)
      else if (p.1.tail.map some ++ q.1).isEmpty then some ([], [some '!'], q.2.2)
      else some (['!'], p.1.tail.map some ++ q.1, q.2.2) := by
  unfold takeTagParts
  split
  · next heq => exact absurd heq (h _)
  · rfl

theorem takeTagParts_twin (h : Twin room line shift c c') :
    Option.Rel (Beside (Beside (Twin (room - 1) line shift))) (takeTagParts c)
      (takeTagParts c') := by
  by_cases hangle : ∃ cs, c.rest = '!' :: '<' :: cs
  · obtain ⟨cs, hc⟩ := hangle
    have hc' : c'.rest = '!' :: '<' :: crlf cs := by
      rw [h.rest, hc, Text.crlf_cons (by decide), Text.crlf_cons (by decide)]
    have hlength := h.length_le
    rw [hc, List.length_cons, List.length_cons] at hlength
    have hafter : Twin (room - 1) line shift (c.advance 2) (c'.advance 2) := by
      refine h.advance ?_ ?_
      · rw [hc]
        simp
      · rw [hc, List.length_cons, List.length_cons]
        omega
    rw [takeTagParts_angle hc, takeTagParts_angle hc']
    refine rel_bind (takeTagText_twin hafter) ?_
    rintro ⟨text, nonempty, d⟩ ⟨text', nonempty', d'⟩ ⟨⟨hd⟩⟩
    dsimp only
    rw [hd.head?_beq (by decide) (by decide)]
    split
    · next hend =>
      have hhead : d.rest.head? = some '>' := by simpa using (Bool.and_eq_true_iff.mp hend).2
      obtain ⟨ds, hds⟩ := List.head?_eq_some_iff.mp hhead
      exact .some (.mk (.mk ((hd.advance_one hds (by decide)).mono (Nat.sub_le _ 1))))
    · exact .none
  · have hangle' : ∀ cs, c'.rest ≠ '!' :: '<' :: cs := by
      intro cs hc'
      rw [h.rest] at hc'
      obtain ⟨ds, hds, hcs⟩ := (Text.crlf_eq_cons (by decide) (by decide)).mp hc'
      obtain ⟨es, rfl, -⟩ := (Text.crlf_eq_cons (by decide) (by decide)).mp hcs.symm
      exact hangle ⟨es, hds⟩
    rw [takeTagParts_handle (not_exists.mp hangle), takeTagParts_handle hangle']
    refine rel_bind (takeHandle_twin h) ?_
    rintro ⟨handle, d⟩ ⟨handle', d'⟩ ⟨hd⟩
    refine rel_bind (takeTagText_twin hd) ?_
    rintro ⟨text, nonempty, e⟩ ⟨text', nonempty', e'⟩ ⟨⟨he⟩⟩
    dsimp only
    split
    · split
      · exact .some (.mk (.mk he))
      · exact .none
    · split <;> exact .some (.mk (.mk he))

theorem takeTag_twin {flow : Bool} (h : Twin room line shift c c') :
    Option.Rel (Beside (Twin (room - 1) line shift)) (takeTag flow c) (takeTag flow c') := by
  unfold takeTag
  refine rel_bind (takeTagParts_twin h) ?_
  rintro ⟨handle, suffix, d⟩ ⟨handle', suffix', d'⟩ ⟨⟨hd⟩⟩
  dsimp only
  rw [hd.gapOrEnd_eq, hd.head?_beq (by decide) (by decide)]
  split
  · exact .some (.mk hd)
  · exact .none

/-! ### Directives -/

theorem takeVersionNumber_twin (h : Twin room line shift c c') :
    Option.Rel (Beside (Twin room line shift)) (takeVersionNumber c) (takeVersionNumber c') := by
  have hdigits := h.takeWhile (p := Char.isDigit) rfl rfl
  unfold takeVersionNumber
  simp only [hdigits.fst_eq]
  split
  · exact .none
  · exact .some (.mk hdigits.snd)

theorem takeVersion_twin (h : Twin room line shift c c') :
    Option.Rel (Beside (Twin room line shift)) (takeVersion c) (takeVersion c') := by
  unfold takeVersion
  refine rel_bind (takeVersionNumber_twin (h.skipWhile (p := isGap) rfl rfl)) ?_
  rintro ⟨major, d⟩ ⟨major', d'⟩ ⟨hd⟩
  have hhead : (d'.rest.head? != some '.') = (d.rest.head? != some '.') :=
    congrArg not (hd.head?_beq (by decide) (by decide))
  dsimp only
  rw [hhead]
  split
  · exact .none
  · next hpoint =>
    have hpoint : d.rest.head? = some '.' := by simpa using hpoint
    obtain ⟨ds, hds⟩ := List.head?_eq_some_iff.mp hpoint
    have hafter := (hd.advance_one hds (by decide)).mono (Nat.sub_le room 1)
    refine rel_bind (takeVersionNumber_twin hafter) ?_
    rintro ⟨minor, e⟩ ⟨minor', e'⟩ ⟨he⟩
    exact .some (.mk he)

theorem takeTagHandle_twin (h : Twin room line shift c c') :
    Option.Rel (Beside (Twin room line shift)) (takeTagHandle c) (takeTagHandle c') := by
  unfold takeTagHandle
  refine rel_bind (takeHandle_twin (h.skipWhile (p := isGap) rfl rfl)) ?_
  rintro ⟨handle, d⟩ ⟨handle', d'⟩ ⟨hd⟩
  dsimp only
  rw [hd.head?_any (p := isGap) rfl]
  split
  · exact .none
  · split
    · exact .none
    · refine rel_bind (takeTagText_twin (hd.skipWhile (p := isGap) rfl rfl)) ?_
      rintro ⟨text, nonempty, e⟩ ⟨text', nonempty', e'⟩ ⟨⟨he⟩⟩
      dsimp only
      rw [he.gapOrEnd_eq]
      split
      · exact .some (.mk (he.mono (Nat.sub_le room 1)))
      · exact .none

theorem takeDirective_eq : takeDirective c =
    let n := (c.advance 1).takeWhile isWord
    (if !gapOrEnd n.2.rest then none
      else if n.1 = "YAML".toList then takeVersion n.2
      else if n.1 = "TAG".toList then takeTagHandle n.2
      else none).bind fun p =>
        if breakOrEnd (p.2.skipWhile isGap).skipComment.rest then
          some (p.1, (p.2.skipWhile isGap).skipComment.skipBreak)
        else none := by
  unfold takeDirective
  dsimp only
  split
  · rfl
  · split
    · rfl
    · split <;> rfl

theorem takeDirective_twin {ch : Char} {cs : List Char} (h : Twin room line shift c c')
    (hc : c.rest = ch :: cs) (hn : ch ≠ '\n') :
    Option.Rel (Beside (Twin (room - 1) line shift)) (takeDirective c) (takeDirective c') := by
  have hname := (h.advance_one hc hn).takeWhile (p := isWord) rfl rfl
  rw [takeDirective_eq, takeDirective_eq]
  dsimp only
  rw [hname.snd.gapOrEnd_eq, hname.fst_eq]
  refine rel_bind (R := Beside (Twin (room - 1) line shift)) ?_ ?_
  · split
    · exact .none
    · split
      · exact takeVersion_twin hname.snd
      · split
        · exact takeTagHandle_twin hname.snd
        · exact .none
  · rintro ⟨token, d⟩ ⟨token', d'⟩ ⟨hd⟩
    have hend := (hd.skipWhile (p := isGap) rfl rfl).skipComment
    dsimp only
    rw [hend.breakOrEnd_eq]
    split
    · exact .some (.mk hend.skipBreak)
    · exact .none

end Yaml
end SitePlan
