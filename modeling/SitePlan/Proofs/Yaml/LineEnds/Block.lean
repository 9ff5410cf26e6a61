/-
# Block scalars and both kinds of line ends

A block scalar has the same text, whichever line ends it is written with. Its indentation is
found in columns, and a line end that is kept is kept as a line feed.

Key theorems: `Yaml.takeHeader_twin`, `Yaml.emptyLines_twin`, `Yaml.blockLines_twin`,
`Yaml.takeBlock_twin`.
-/
import SitePlan.Proofs.Yaml.LineEnds.Cursor
import SitePlan.Yaml.Token.Scalar

namespace SitePlan
namespace Yaml

open Text (crlf)
open Outcome (rel_bind rel_map rel_elim rel_imp)

variable {room line : Nat} {shift : Int} {c c' : Cursor}

/-! ### The header -/

theorem takeChomp_cons {ch : Char} {cs : List Char} (h : c.rest = ch :: cs) :
    Scalar.takeChomp c =
      if ch = '+' then some (.keep, c.advance 1)
      else if ch = '-' then some (.strip, c.advance 1) else none := by
  unfold Scalar.takeChomp
  rw [h]
  split
  · next heq => rw [if_pos (List.cons.inj heq).1]
  · next heq =>
    obtain ⟨rfl, rfl⟩ := List.cons.inj heq
    rfl
  · next hplus hminus =>
    rw [if_neg fun hch => hplus cs (by rw [hch]), if_neg fun hch => hminus cs (by rw [hch])]

theorem takeChomp_twin (h : Twin room line shift c c') :
    Option.Rel (Beside (Twin room line shift)) (Scalar.takeChomp c) (Scalar.takeChomp c') := by
  rcases h.cases with ⟨e, e'⟩ | ⟨cs, e, e'⟩ | ⟨ch, cs, hn, hr, e, e'⟩
  · unfold Scalar.takeChomp
    rw [e, e']
    exact .none
  · rw [takeChomp_cons e, takeChomp_cons e']
    exact .none
  · have hone := (h.advance_one e hn).mono (Nat.sub_le room 1)
    rw [takeChomp_cons e, takeChomp_cons e']
    split
    · exact .some (.mk hone)
    · split
      · exact .some (.mk hone)
      · exact .none

theorem takeIndent_twin (h : Twin room line shift c c') :
    Option.Rel (Beside (Twin room line shift)) (Scalar.takeIndent c) (Scalar.takeIndent c') := by
  unfold Scalar.takeIndent
  rcases h.cases with ⟨e, e'⟩ | ⟨cs, e, e'⟩ | ⟨ch, cs, hn, hr, e, e'⟩
  · rw [e, e']
    exact .some (.mk h)
  · rw [e, e']
    exact .some (.mk h)
  · have hone := (h.advance_one e hn).mono (Nat.sub_le room 1)
    rw [e, e']
    dsimp only
    split
    · exact .none
    · split
      · exact .some (.mk hone)
      · exact .some (.mk h)

theorem takeHeader_eq : Scalar.takeHeader c = (Scalar.takeChomp c).elim
    ((Scalar.takeIndent c).bind fun p =>
      if p.1 = 0 then some (.clip, 0, p.2)
      else (Scalar.takeChomp p.2).elim (some (.clip, p.1, p.2)) fun q => some (q.1, p.1, q.2))
    fun q => (Scalar.takeIndent q.2).map fun p => (q.1, p.1, p.2) := by
  unfold Scalar.takeHeader
  cases Scalar.takeChomp c with
  | some q => rfl
  | none =>
    refine congrArg (Option.bind _) (funext fun p => ?_)
    obtain ⟨n, d⟩ := p
    dsimp only
    cases Scalar.takeChomp d <;> rfl

theorem takeHeader_twin (h : Twin room line shift c c') :
    Option.Rel (Beside (Beside (Twin room line shift))) (Scalar.takeHeader c)
      (Scalar.takeHeader c') := by
  rw [takeHeader_eq, takeHeader_eq]
  refine rel_elim (takeChomp_twin h) (rel_bind (takeIndent_twin h) ?_) ?_
  · rintro ⟨n, d⟩ ⟨n', d'⟩ ⟨hd⟩
    dsimp only
    split
    · exact .some (.mk (.mk hd))
    · refine rel_elim (takeChomp_twin hd) (.some (.mk (.mk hd))) ?_
      rintro ⟨chomp, e⟩ ⟨chomp', e'⟩ ⟨he⟩
      exact .some (.mk (.mk he))
  · rintro ⟨chomp, d⟩ ⟨chomp', d'⟩ ⟨hd⟩
    refine rel_map (takeIndent_twin hd) ?_
    rintro ⟨n, e⟩ ⟨n', e'⟩ ⟨he⟩
    exact .mk (.mk he)

/-! ### Lines -/

/-- Past the indentation, all of it where its depth is not known yet. -/
def pastIndent (indent : Nat) (c : Cursor) : Cursor :=
  let spaces := (c.rest.takeWhile (· == ' ')).length
  c.advance (if indent = 0 then spaces else min spaces (indent - c.column))

theorem pastIndent_twin (indent : Nat) (h : Twin room line shift c c') :
    Twin room line shift (pastIndent indent c) (pastIndent indent c') := by
  have hspaces : c'.rest.takeWhile (· == ' ') = c.rest.takeWhile (· == ' ') := by
    rw [h.rest, Text.takeWhile_crlf rfl rfl]
  unfold pastIndent
  rw [hspaces, h.column_eq]
  refine h.advance (fun hmem => ?_) (Nat.le_trans h.length_le (Nat.le_add_right _ _))
  -- no more is taken than spaces
  have hbegins : ∀ n ≤ (c.rest.takeWhile (· == ' ')).length,
      c.rest.take n <+: c.rest.takeWhile (· == ' ') := fun n hn =>
    List.prefix_of_prefix_length_le (List.take_prefix n _) (List.takeWhile_prefix _)
      (Nat.le_trans (List.length_take_le n _) hn)
  have hspace := List.mem_takeWhile_imp ((hbegins _ (by split <;> omega)).subset hmem)
  cases hspace

theorem emptyLines_eq {indent n widest : Nat} : Scalar.emptyLines indent (n + 1) widest c =
    if ((indent = 0 || (pastIndent indent c).column < indent) &&
        (pastIndent indent c).rest.head? == some '\t') then none
    else if breakOrEnd (pastIndent indent c).rest && !(pastIndent indent c).rest.isEmpty then
      (Scalar.emptyLines indent n (max widest (pastIndent indent c).column)
        (pastIndent indent c).takeBreak.2).bind fun q =>
          some ((pastIndent indent c).takeBreak.1 ++ q.1, q.2.1, q.2.2)
    else some ([], max widest (pastIndent indent c).column, pastIndent indent c) := by
  rw [Scalar.emptyLines]
  rfl

theorem emptyLines_twin {indent : Nat} : ∀ {n m room widest : Nat} {c c' : Cursor},
    Twin room line shift c c' → room < n → room < m →
    Option.Rel (Beside (Beside (Twin room line shift))) (Scalar.emptyLines indent n widest c)
      (Scalar.emptyLines indent m widest c')
  | 0, _, _, _, _, _, _, hn, _ => absurd hn (Nat.not_lt_zero _)
  | _ + 1, 0, _, _, _, _, _, _, hm => absurd hm (Nat.not_lt_zero _)
  | n + 1, m + 1, room, widest, c, c', h, hn, hm => by
    have hafter := pastIndent_twin indent h
    rw [emptyLines_eq, emptyLines_eq, hafter.column_eq, hafter.head?_beq (by decide) (by decide),
      hafter.breakOrEnd_eq, hafter.isEmpty]
    split
    · exact .none
    · split
      · next hend =>
        have hbreak : (pastIndent indent c).rest.head?.any isBreak = true := by
          cases hc : (pastIndent indent c).rest with
          | nil =>
            rw [hc] at hend
            simp at hend
          | cons ch cs =>
            rw [hc] at hend
            simpa [breakOrEnd] using hend
        have hnext := hafter.takeBreak_of_isBreak hbreak
        have hroom := hafter.room_pos_of_head? hbreak
        rw [hnext.fst_eq]
        refine rel_bind (emptyLines_twin hnext.snd (by omega) (by omega)) ?_
        rintro ⟨more, widest, d⟩ ⟨more', widest', d'⟩ ⟨⟨hd⟩⟩
        exact .some (.mk (.mk (hd.mono (Nat.sub_le room 1))))
      · exact .some (.mk (.mk hafter))

theorem emptyLines_fuel_twin {indent widest : Nat} (h : Twin room line shift c c') :
    Option.Rel (Beside (Beside (Twin room line shift)))
      (Scalar.emptyLines indent c.fuel widest c) (Scalar.emptyLines indent c'.fuel widest c') :=
  rel_imp (emptyLines_twin h.tight h.lt_fuel.1 h.lt_fuel.2) fun _ _ hp => hp.imp fun _ _ hq =>
    hq.imp fun _ _ hd => hd.mono h.length_le

/-- Past the rest of a line and its end, where anything is left. -/
theorem takeLine_twin (h : Twin room line shift c c') (hne : c.rest ≠ []) :
    (c'.takeWhile fun ch => !isBreak ch).1 = (c.takeWhile fun ch => !isBreak ch).1 ∧
      Beside (Twin (room - 1) line shift) (c.takeWhile fun ch => !isBreak ch).2.takeBreak
        (c'.takeWhile fun ch => !isBreak ch).2.takeBreak := by
  have hline := h.takeWhile (p := fun ch => !isBreak ch) rfl rfl
  refine ⟨hline.fst_eq, ?_⟩
  obtain ⟨ch, cs, hc⟩ := List.exists_cons_of_ne_nil hne
  by_cases hbreak : isBreak ch = true
  · have htaken : c.rest.takeWhile (fun ch => !isBreak ch) = [] := by simp [hc, hbreak]
    have hrest : (c.takeWhile fun ch => !isBreak ch).2.rest = c.rest := by
      unfold Cursor.takeWhile
      rw [htaken]
      rfl
    exact hline.snd.takeBreak_of_isBreak (by rw [hrest, hc]; exact hbreak)
  · have hless : (c.takeWhile fun ch => !isBreak ch).2.rest.length ≤ room - 1 := by
      have hlength := h.length_le
      have htaken : 0 < (c.rest.takeWhile fun ch => !isBreak ch).length := by simp [hc, hbreak]
      unfold Cursor.takeWhile Cursor.advance
      rw [List.length_drop]
      omega
    exact (hline.snd.tight.mono hless).takeBreak

theorem blockLines_eq {isLiteral : Bool} {indent n : Nat} {ended skipped : List Char}
    {led : Bool} : Scalar.blockLines isLiteral indent (n + 1) ended skipped led c =
    if c.column ≠ indent ∨ c.rest.isEmpty then some ([], ended, skipped, c)
    else
      let between :=
        if !isLiteral && ended == ['\n'] && !led && !c.rest.head?.any isGap then
          (if skipped.isEmpty then [' '] else skipped)
        else ended ++ skipped
      let l := c.takeWhile fun ch => !isBreak ch
      (Scalar.emptyLines indent l.2.takeBreak.2.fuel 0 l.2.takeBreak.2).bind fun e =>
        (Scalar.blockLines isLiteral indent n l.2.takeBreak.1 e.1 (c.rest.head?.any isGap)
          e.2.2).bind fun q => some (between ++ l.1 ++ q.1, q.2.1, q.2.2.1, q.2.2.2) := by
  rw [Scalar.blockLines]
  rfl

theorem blockLines_twin {isLiteral : Bool} {indent : Nat} : ∀ {n m room : Nat}
    {ended skipped : List Char} {led : Bool} {c c' : Cursor},
    Twin room line shift c c' → room < n → room < m →
    Option.Rel (Beside (Beside (Beside (Twin room line shift))))
      (Scalar.blockLines isLiteral indent n ended skipped led c)
      (Scalar.blockLines isLiteral indent m ended skipped led c')
  | 0, _, _, _, _, _, _, _, _, hn, _ => absurd hn (Nat.not_lt_zero _)
  | _ + 1, 0, _, _, _, _, _, _, _, _, hm => absurd hm (Nat.not_lt_zero _)
  | n + 1, m + 1, room, ended, skipped, led, c, c', h, hn, hm => by
    rw [blockLines_eq, blockLines_eq, h.column_eq, h.isEmpty, h.head?_any rfl]
    split
    · exact .some (.mk (.mk (.mk h)))
    · next hgo =>
      have hne : c.rest ≠ [] := fun hnil => hgo (.inr (by rw [hnil]; rfl))
      have hroom := h.room_pos hne
      obtain ⟨htext, hnext⟩ := takeLine_twin h hne
      dsimp only
      rw [htext, hnext.fst_eq]
      refine rel_bind (emptyLines_fuel_twin hnext.snd) ?_
      rintro ⟨skipped, widest, d⟩ ⟨skipped', widest', d'⟩ ⟨⟨hd⟩⟩
      refine rel_bind (blockLines_twin hd (by omega) (by omega)) ?_
      rintro ⟨more, ended, skipped, e⟩ ⟨more', ended', skipped', e'⟩ ⟨⟨⟨he⟩⟩⟩
      exact .some (.mk (.mk (.mk (he.mono (Nat.sub_le room 1)))))

/-! ### The whole scalar -/

theorem takeBlock_eq {isLiteral : Bool} {margin : Nat} : Scalar.takeBlock isLiteral margin c =
    (Scalar.takeHeader (c.advance 1)).bind fun p =>
      let d := (p.2.2.skipWhile isGap).skipComment
      if !breakOrEnd d.rest then none
      else
        let given := if p.2.1 = 0 then 0 else (margin - 1) + p.2.1
        (Scalar.emptyLines given d.skipBreak.fuel 0 d.skipBreak).bind fun e =>
          let indent := if given = 0 then max e.2.1 (max margin 1) else given
          (Scalar.blockLines isLiteral indent e.2.2.fuel [] e.1 false e.2.2).bind fun q =>
            some (q.1 ++ (match p.1 with
              | .strip => []
              | .clip => q.2.1
              | .keep => q.2.1 ++ q.2.2.1), q.2.2.2) := by
  rfl

/-- A block scalar is the same, and takes a character. -/
theorem takeBlock_twin {isLiteral : Bool} {margin : Nat} {ch : Char} {cs : List Char}
    (h : Twin room line shift c c') (hc : c.rest = ch :: cs) (hn : ch ≠ '\n') :
    Option.Rel (Beside (Twin (room - 1) line shift)) (Scalar.takeBlock isLiteral margin c)
      (Scalar.takeBlock isLiteral margin c') := by
  rw [takeBlock_eq, takeBlock_eq]
  refine rel_bind (takeHeader_twin (h.advance_one hc hn)) ?_
  rintro ⟨chomp, n, d⟩ ⟨chomp', n', d'⟩ ⟨⟨hd⟩⟩
  have hend := (hd.skipWhile (p := isGap) rfl rfl).skipComment
  dsimp only
  rw [hend.breakOrEnd_eq]
  split
  · exact .none
  · refine rel_bind (emptyLines_fuel_twin hend.skipBreak) ?_
    rintro ⟨skipped, widest, e⟩ ⟨skipped', widest', e'⟩ ⟨⟨he⟩⟩
    dsimp only
    refine rel_bind (blockLines_twin he.tight he.lt_fuel.1 he.lt_fuel.2) ?_
    rintro ⟨text, ended, skipped, f⟩ ⟨text', ended', skipped', f'⟩ ⟨⟨⟨hf⟩⟩⟩
    exact .some (.mk (hf.mono he.length_le))

end Yaml
end SitePlan
