/-
# The grammar of navigation entries

An entry is written down as one value: a page by its path alone or as the
mapping of its label to the path, a link as the mapping of its label to the
target, and a group as the mapping of its label to the sequence of its entries.
Reading accepts exactly what is written down of entries whose pages are not
external and whose links are, and gives these entries back.

Key definitions: `NavEntry.written`, `NavEntry.Proper`.
Key theorems: `NavEntry.written_of_ofValue`, `NavEntry.ofValue_written`,
`NavEntry.ofValue_iff_written`.
-/
import Mathlib.Data.Set.Function
import SitePlan.Config.NavEntry
import SitePlan.Proofs.Outcome

namespace SitePlan
namespace NavEntry

mutual

/-- The value that an entry is written down as. -/
def written : NavEntry → Yaml.Value
  | page none path => .string path
  | page (some title) path => .mapping [(.string title, .string path)]
  | link title url => .mapping [(.string title, .string url)]
  | group title children => .mapping [(.string title, .sequence (allWritten children))]

/-- The values that entries are written down as, in their order. -/
def allWritten : List NavEntry → List Yaml.Value
  | [] => []
  | e :: es => written e :: allWritten es

end

/-- The pages of an entry are not external, and its links are. -/
inductive Proper : NavEntry → Prop
  | page {title : Option String} {path : String} : isExternal path = false →
      Proper (.page title path)
  | link {title url : String} : isExternal url = true → Proper (.link title url)
  | group {title : String} {children : List NavEntry} : (∀ e ∈ children, Proper e) →
      Proper (.group title children)

/-! ### What is read has been written so -/

/-- A mapping that reads has one key, which is a label. -/
theorem labelled_of_ofValue {entries : List (Yaml.Value × Yaml.Value)} {e : NavEntry}
    (h : ofValue (.mapping entries) = .ok e) :
    ∃ title target, entries = [(.string title, target)] := by
  unfold ofValue at h
  split at h
  · next heq => cases heq
  · next title target heq => exact ⟨title, target, Yaml.Value.mapping.inj heq⟩
  · cases h
  · cases h
  · cases h

theorem written_of_string {title target : String} {e : NavEntry}
    (h : ofTarget title (.string target) = .ok e) :
    e.Proper ∧ e.written = .mapping [(.string title, .string target)] := by
  rw [ofTarget] at h
  cases hx : isExternal target with
  | true =>
    rw [hx, if_pos rfl] at h
    cases h
    exact ⟨.link hx, rfl⟩
  | false =>
    rw [hx, if_neg Bool.false_ne_true] at h
    cases h
    exact ⟨.page hx, rfl⟩

mutual

/-- Whatever reads is what the entry read is written down as. -/
theorem written_of_ofValue : ∀ (v : Yaml.Value) (e : NavEntry), ofValue v = .ok e →
    e.Proper ∧ e.written = v
  | .string path, e, h => by
    rw [ofValue] at h
    split_ifs at h with hx
    cases h
    exact ⟨.page (by simpa using hx), rfl⟩
  | .mapping [(.string title, target)], e, h => by
    rw [ofValue] at h
    exact written_of_ofTarget title target e h
  | .mapping [(.null, _)], _, h | .mapping [(.bool _, _)], _, h | .mapping [(.number _, _)], _, h
  | .mapping [(.sequence _, _)], _, h | .mapping [(.mapping _, _)], _, h
  | .mapping [(.tagged _ _, _)], _, h | .mapping [], _, h | .mapping (_ :: _ :: _), _, h => by
    obtain ⟨_, _, hlabel⟩ := labelled_of_ofValue h
    cases hlabel
  | .null, _, h | .bool _, _, h | .number _, _, h | .sequence _, _, h | .tagged _ _, _, h => by
    simp [ofValue] at h

theorem written_of_ofTarget (title : String) : ∀ (v : Yaml.Value) (e : NavEntry),
    ofTarget title v = .ok e → e.Proper ∧ e.written = .mapping [(.string title, v)]
  | .string _, _, h => written_of_string h
  | .sequence items, e, h => by
    rw [ofTarget, Outcome.bind_eq_ok] at h
    obtain ⟨children, hchildren, heq⟩ := h
    cases heq
    obtain ⟨hproper, hwritten⟩ := written_of_ofValues items children hchildren
    refine ⟨.group hproper, ?_⟩
    rw [written, hwritten]
  | .null, _, h | .bool _, _, h | .number _, _, h | .mapping _, _, h | .tagged _ _, _, h => by
    simp [ofTarget] at h

theorem written_of_ofValues : ∀ (vs : List Yaml.Value) (es : List NavEntry),
    ofValues vs = .ok es → (∀ e ∈ es, e.Proper) ∧ allWritten es = vs
  | [], _, h => by
    cases h
    exact ⟨by simp, rfl⟩
  | v :: vs, _, h => by
    simp only [ofValues, Outcome.bind_eq_ok] at h
    obtain ⟨e, he, es, hes, heq⟩ := h
    cases heq
    obtain ⟨hproper, hwritten⟩ := written_of_ofValue v e he
    obtain ⟨hallProper, hallWritten⟩ := written_of_ofValues vs es hes
    refine ⟨List.forall_mem_cons.mpr ⟨hproper, hallProper⟩, ?_⟩
    rw [allWritten, hwritten, hallWritten]

end

/-! ### What is written is read back -/

mutual

/-- Whatever a proper entry is written down as reads as the entry. -/
theorem ofValue_written : ∀ e : NavEntry, e.Proper → ofValue e.written = .ok e
  | .page none path, h => by
    cases h with
    | page hx => simp [written, ofValue, hx]
  | .page (some title) path, h => by
    cases h with
    | page hx => simp [written, ofValue, ofTarget, hx]
  | .link title url, h => by
    cases h with
    | link hx => simp [written, ofValue, ofTarget, hx]
  | .group title children, h => by
    cases h with
    | group hproper =>
      rw [written, ofValue, ofTarget, ofValues_allWritten children hproper]
      rfl

theorem ofValues_allWritten : ∀ es : List NavEntry, (∀ e ∈ es, e.Proper) →
    ofValues (allWritten es) = .ok es
  | [], _ => rfl
  | e :: es, h => by
    obtain ⟨he, hes⟩ := List.forall_mem_cons.mp h
    rw [allWritten, ofValues, ofValue_written e he, ofValues_allWritten es hes]
    rfl

end

/-- **Reading inverts writing down.** A value reads as an entry exactly if it is
what that entry is written down as and the entry is proper. So the proper entries
and the values that read stand in a bijection. -/
theorem ofValue_iff_written :
    (∀ v e, ofValue v = .ok e ↔ e.Proper ∧ e.written = v) ∧
      Set.BijOn written {e | e.Proper} {v | ∃ e, ofValue v = .ok e} := by
  have hiff : ∀ v e, ofValue v = .ok e ↔ e.Proper ∧ e.written = v := by
    refine fun v e => ⟨written_of_ofValue v e, ?_⟩
    rintro ⟨hproper, rfl⟩
    exact ofValue_written e hproper
  refine ⟨hiff, fun e he => ⟨e, ofValue_written e he⟩, fun e he e' he' heq => ?_, ?_⟩
  · have h := ofValue_written e he
    rw [heq, ofValue_written e' he'] at h
    exact (Except.ok.inj h).symm
  · rintro v ⟨e, he⟩
    exact ⟨e, (hiff v e).mp he⟩

/-- A link that is not external is written down as a page is, and reads as one. -/
example : ofValue (written (.link "Guide" "guide.md")) = .ok (.page (some "Guide") "guide.md") :=
  rfl

end NavEntry
end SitePlan
