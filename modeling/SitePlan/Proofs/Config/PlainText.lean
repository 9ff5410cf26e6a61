/-
# Texts that are documents

A text that is a document has its tags replaced and its fields read. Without tags
there is nothing for the environment to replace: a text that is such a document loads
as its entries do, and so does a file that holds the text.

Key definitions: `Config.IsDocument`, `Config.IsPlainText`.
Key theorems: `Yaml.Value.tagFree_of_untagged`, `Config.ofText_of_isDocument`,
`Config.ofText_of_plain`, `Config.load_of_plain`.
-/
import SitePlan.Config.Load
import SitePlan.Proofs.Environment.Replacement
import SitePlan.Proofs.Files.Descent

namespace SitePlan

open Yaml (Value)

namespace Yaml.Value

mutual

/-- Where no tag stands anywhere, none stands outside of keys. -/
theorem tagFree_of_untagged : ∀ v : Value, v.hasTag = false → v.TagFree
  | .null, _ => .scalar .null
  | .bool b, _ => .scalar (.bool b)
  | .number n, _ => .scalar (.number n)
  | .string s, _ => .scalar (.string s)
  | .sequence items, h => .sequence (items_tagFree_of_untagged items h)
  | .mapping entries, h => .mapping (entries_tagFree_of_untagged entries h)

theorem items_tagFree_of_untagged : ∀ items : List Value, itemsHaveTag items = false →
    ∀ v ∈ items, v.TagFree
  | [], _ => by simp
  | v :: items, h => by
    rw [itemsHaveTag, Bool.or_eq_false_iff] at h
    exact List.forall_mem_cons.mpr ⟨tagFree_of_untagged v h.1, items_tagFree_of_untagged items h.2⟩

theorem entries_tagFree_of_untagged : ∀ entries : List (Value × Value),
    entriesHaveTag entries = false → ∀ e ∈ entries, e.2.TagFree
  | [], _ => by simp
  | (k, v) :: entries, h => by
    rw [entriesHaveTag, Bool.or_eq_false_iff, Bool.or_eq_false_iff] at h
    exact List.forall_mem_cons.mpr
      ⟨tagFree_of_untagged v h.1.2, entries_tagFree_of_untagged entries h.2⟩

end

end Yaml.Value

namespace Config

variable {m : List (Value × Value)}

/-- A text is a document with the given entries. -/
structure IsDocument (text : String) (m : List (Value × Value)) : Prop where
  notBlank : Text.isBlankText text = false
  reads : Value.ofText text = .ok (.mapping m)

/-- A text that is a document has its tags replaced and its fields read. -/
theorem ofText_of_isDocument {text : String} (h : IsDocument text m)
    (lookup : String → Option String) (dir : Path) (s : Settings) : ofText lookup dir s text =
      Environment.resolve lookup "" (.mapping m) >>= ofDocument dir s := by
  unfold ofText documentEntries
  rw [h.notBlank, h.reads]
  rfl

/-- A text is a document with the given entries, and no tag stands in them. -/
structure IsPlainText (text : String) (m : List (Value × Value)) : Prop where
  notBlank : Text.isBlankText text = false
  reads : Value.ofText text = .ok (.mapping m)
  untagged : (Value.mapping m).hasTag = false

/-- Without tags there is nothing for the environment to replace. -/
theorem ofText_of_plain {text : String} (h : IsPlainText text m) (lookup : String → Option String)
    (dir : Path) (s : Settings) : ofText lookup dir s text = ofDocument dir s (.mapping m) := by
  have hresolve : Environment.resolve lookup "" (.mapping m) = .ok (.mapping m) :=
    (Environment.resolve_eq_ok _ _ _).mpr
      (Environment.resolves_of_tagFree (Value.tagFree_of_untagged _ h.untagged))
  have hdocument : IsDocument text m := { notBlank := h.notBlank, reads := h.reads }
  rw [ofText_of_isDocument hdocument, hresolve]
  rfl

theorem load_of_plain {h : Host} {path : Path} {text : String} (hread : h.readText path = .ok text)
    (hplain : IsPlainText text m) (s : Settings) : load h (some path) s =
      (ofDocument path.directory s (.mapping m)).map fun c => { c with configPath := some path } := by
  have hpresent : h.present path = true := by
    obtain ⟨bytes, hfind, -⟩ := Host.readText_eq_ok_iff.mp hread
    unfold Host.present
    rw [hfind]
    rfl
  have hfile : load h (some path) s = loadFile h s path := if_pos hpresent
  rw [hfile]
  unfold loadFile
  rw [hread]
  show (ofText h.lookupVariable path.directory s text >>= _) = _
  rw [ofText_of_plain hplain]
  cases ofDocument path.directory s (.mapping m) <;> rfl

end Config
end SitePlan
