/-
# The development address

With a valid name and valid web addresses, the development address decides alone whether the
first rules of a configuration hold. It has to be a host, the last colon in it, and a port:
at most one plus sign, zeros in any number, and a number from 1 to 65535 as it is commonly
written. The number is read digit by digit, and reading stops where it would pass 65535; as
it never shrinks with a further digit and zeros in front leave it at 0, nothing else is
refused. A port of 0 has an error of its own.

Key theorems: `decimal_written`, `exists_written`, `isHostPort_iff_written`,
`Config.validateSite_devAddr`.
-/
import SitePlan.Proofs.Config.Rules

namespace SitePlan

/-! ### Numbers as they are written -/

theorem decimal_eq_ofDigitChars (ds : List Char) : decimal ds = Nat.ofDigitChars 10 ds 0 := by
  rw [decimal_eq]
  rfl

/-- Zeros in front of a number do not change it. -/
theorem decimal_written (zeros n : Nat) :
    decimal (List.replicate zeros '0' ++ (toString n).toList) = n := by
  rw [decimal_eq_ofDigitChars, Nat.toString_eq_repr, Nat.toList_repr, Nat.ofDigitChars_append,
    Nat.ofDigitChars_replicate_zero, Nat.mul_zero, Nat.ofDigitChars_ten_toDigits]

theorem digitChar_of_isDigit {d : Char} (h : d.isDigit = true) :
    d.toNat - '0'.toNat < 10 ∧ Nat.digitChar (d.toNat - '0'.toNat) = d := by
  have hrange : 48 ≤ d.toNat ∧ d.toNat ≤ 57 := by
    simpa [Char.isDigit, UInt32.le_iff_toNat_le] using h
  have hzero : '0'.toNat = 48 := rfl
  have hlt : d.toNat - '0'.toNat < 10 := by omega
  refine ⟨hlt, Char.toNat_inj.mp ?_⟩
  rw [Nat.toNat_digitChar_of_lt_ten hlt]
  omega

/-- Digits after a number that is not 0 are the last ones of a larger number. -/
theorem toDigits_append : ∀ {ds : List Char} {n : Nat}, (∀ d ∈ ds, d.isDigit = true) → 0 < n →
    Nat.toDigits 10 n ++ ds = Nat.toDigits 10 (decimalAfter n ds)
  | [], n, _, _ => List.append_nil _
  | d :: ds, n, hds, hn => by
    obtain ⟨hd, hrest⟩ := List.forall_mem_cons.mp hds
    obtain ⟨hlt, hchar⟩ := digitChar_of_isDigit hd
    have hstep : Nat.toDigits 10 n ++ [d] =
        Nat.toDigits 10 (10 * n + (d.toNat - '0'.toNat)) := by
      rw [← Nat.toDigits_append_toDigits (by decide) hn hlt, Nat.toDigits_of_lt_base hlt, hchar]
    calc Nat.toDigits 10 n ++ d :: ds
        = (Nat.toDigits 10 n ++ [d]) ++ ds := List.append_cons _ d ds
      _ = Nat.toDigits 10 (10 * n + (d.toNat - '0'.toNat)) ++ ds := by rw [hstep]
      _ = Nat.toDigits 10 (decimalAfter n (d :: ds)) := toDigits_append hrest (by omega)

/-- Digits are zeros with a number as it is written after them. -/
theorem exists_written : ∀ {ds : List Char}, ds ≠ [] → (∀ d ∈ ds, d.isDigit = true) →
    ∃ zeros, ds = List.replicate zeros '0' ++ (toString (decimal ds)).toList
  | d :: ds, _, hds => by
    obtain ⟨hd, hrest⟩ := List.forall_mem_cons.mp hds
    obtain ⟨hlt, hchar⟩ := digitChar_of_isDigit hd
    have hafter : decimal (d :: ds) = decimalAfter (d.toNat - '0'.toNat) ds := by
      rw [decimal_eq]
      exact congrArg (decimalAfter · ds) (Nat.zero_add _)
    by_cases hzero : d = '0'
    · subst hzero
      by_cases hnil : ds = []
      · exact ⟨0, by rw [hnil]; rfl⟩
      · obtain ⟨zeros, hzeros⟩ := exists_written hnil hrest
        have hsame : decimal ('0' :: ds) = decimal ds := by
          rw [hafter, decimal_eq]
          rfl
        refine ⟨zeros + 1, ?_⟩
        rw [hsame, List.replicate_succ, List.cons_append, ← hzeros]
    · have hpos : 0 < d.toNat - '0'.toNat := by
        refine Nat.pos_of_ne_zero fun h => hzero ?_
        rw [← hchar, h]
        rfl
      refine ⟨0, ?_⟩
      rw [hafter, Nat.toString_eq_repr, Nat.toList_repr, ← toDigits_append hrest hpos,
        Nat.toDigits_of_lt_base hlt, hchar]
      rfl

theorem isDigit_written (zeros n : Nat) :
    ∀ d ∈ List.replicate zeros '0' ++ (toString n).toList, d.isDigit = true := by
  intro d hd
  rcases List.mem_append.mp hd with hzero | hnumber
  · rw [List.eq_of_mem_replicate hzero]
    decide
  · rw [Nat.toString_eq_repr, Nat.toList_repr] at hnumber
    exact Nat.isDigit_of_mem_toDigits (by decide) (by decide) hnumber

/-- An address is a host, a colon, perhaps a plus sign, zeros and the number of the port. -/
theorem isHostPort_iff_written {address : String} {port : Nat} : IsHostPort address port ↔
    port ≤ 65535 ∧ ∃ host sign zeros, host ≠ "" ∧ (sign = "" ∨ sign = "+") ∧
      address = host ++ ":" ++ sign ++ String.ofList (List.replicate zeros '0') ++
        toString port := by
  constructor
  · rintro ⟨host, rest, haddress, -, hhost, ds, hsign, hds, hdigits, rfl, hport⟩
    obtain ⟨zeros, hzeros⟩ := exists_written hds hdigits
    obtain ⟨sign, hsign, hrest⟩ : ∃ sign : String, (sign = "" ∨ sign = "+") ∧
        rest = sign.toList ++ ds := by
      rcases hsign with rfl | rfl
      · exact ⟨"", .inl rfl, rfl⟩
      · exact ⟨"+", .inr rfl, rfl⟩
    refine ⟨Nat.le_of_lt_succ hport, String.ofList host, sign, zeros,
      fun h => hhost (String.ofList_eq_empty_iff.mp h), hsign, String.toList_inj.mp ?_⟩
    calc address.toList
        = host ++ ':' :: (sign.toList ++
            (List.replicate zeros '0' ++ (toString (decimal ds)).toList)) := by
          rw [← hzeros, ← hrest, haddress]
      _ = (String.ofList host ++ ":" ++ sign ++ String.ofList (List.replicate zeros '0') ++
            toString (decimal ds)).toList := by simp
  · rintro ⟨hport, host, sign, zeros, hhost, hsign, rfl⟩
    have hdigits := isDigit_written zeros port
    have hds : List.replicate zeros '0' ++ (toString port).toList ≠ [] := by
      refine List.append_ne_nil_of_right_ne_nil _ ?_
      rw [Nat.toString_eq_repr, Nat.toList_repr]
      exact Nat.toDigits_ne_nil
    have hcolon : ':' ∉ List.replicate zeros '0' ++ (toString port).toList := fun h =>
      absurd (hdigits ':' h) (by decide)
    refine ⟨host.toList, sign.toList ++ (List.replicate zeros '0' ++ (toString port).toList), ?_,
      ?_, ?_, _, ?_, hds, hdigits, decimal_written zeros port, Nat.lt_succ_of_le hport⟩
    · simp
    · rcases hsign with rfl | rfl
      · exact hcolon
      · exact List.not_mem_cons_of_ne_of_not_mem (by decide) hcolon
    · exact fun h => hhost (String.toList_eq_nil_iff.mp h)
    · rcases hsign with rfl | rfl
      · exact .inl rfl
      · exact .inr rfl

namespace Config

variable {c : Config}

/-- Behind valid texts the check of a site is that of its development address. -/
theorem validateSite_eq (hname : Text.HasContent c.siteName)
    (hsite : ∀ url ∈ c.siteUrl, IsWebAddress url) (hrepo : ∀ url ∈ c.repoUrl, IsWebAddress url) :
    c.validateSite = match addressPort? c.devAddr with
      | none => .error (.invalid (.notHostPort c.devAddr))
      | some 0 => .error (.invalid .portZero)
      | some _ => .ok () := by
  have hnameOk := (requireText_enforces "site_name" c.siteName).passes
    (List.forall_mem_singleton.mpr hname)
  have hsiteOk := (requireUrl_enforces "site_url" c.siteUrl).passes
    (List.forall_mem_singleton.mpr hsite)
  have hrepoOk := (requireUrl_enforces "repo_url" c.repoUrl).passes
    (List.forall_mem_singleton.mpr hrepo)
  unfold validateSite
  rw [hnameOk, Outcome.ok_bind, hsiteOk, Outcome.ok_bind, hrepoOk]
  rfl

/-- **The development address is checked for a host and a port.** Where the name and the web
addresses are valid, the address alone decides: it is accepted exactly if it is a host, the
last colon and a port from 1 to 65535, the port 0 is refused as such, and everything else is
refused for its form. The port is at most one plus sign, zeros in any number and the number
as it is commonly written. -/
theorem validateSite_devAddr (hname : Text.HasContent c.siteName)
    (hsite : ∀ url ∈ c.siteUrl, IsWebAddress url) (hrepo : ∀ url ∈ c.repoUrl, IsWebAddress url)
    (s : String) :
    ({ c with devAddr := s }.validateSite = .ok () ↔
      ∃ port, 1 ≤ port ∧ port ≤ 65535 ∧ IsHostPort s port) ∧
    ({ c with devAddr := s }.validateSite = .error (.invalid .portZero) ↔ IsHostPort s 0) ∧
    ({ c with devAddr := s }.validateSite = .error (.invalid (.notHostPort s)) ↔
      ∀ port, ¬ IsHostPort s port) ∧
    (∀ port, IsHostPort s port ↔
      port ≤ 65535 ∧ ∃ host sign zeros, host ≠ "" ∧ (sign = "" ∨ sign = "+") ∧
        s = host ++ ":" ++ sign ++ String.ofList (List.replicate zeros '0') ++ toString port) ∧
    Invalid.portZero.message = "dev_addr port cannot be 0" ∧
    (Invalid.notHostPort s).message = "dev_addr must be host:port, got `" ++ s ++ "`" := by
  have hports : ∀ port, IsHostPort s port ↔ addressPort? s = some port := fun port =>
    addressPort?_eq_some.symm
  have hbound : ∀ port, addressPort? s = some port → port ≤ 65535 := fun port h =>
    (isHostPort_iff_written.mp ((hports port).mpr h)).1
  have hcheck := validateSite_eq (c := { c with devAddr := s }) hname hsite hrepo
  refine ⟨?accepted, ?zero, ?refused, fun port => isHostPort_iff_written, rfl, rfl⟩ <;>
    rw [hcheck] <;> simp only [hports]
  case accepted =>
    rcases hport : addressPort? s with _ | _ | n
    · simp
    · simp
    · simpa using hbound _ hport
  case zero => rcases addressPort? s with _ | _ | n <;> simp
  case refused => rcases addressPort? s with _ | _ | n <;> simp

/-- A site with a name and one web address. -/
def addressedSite : Config :=
  { (default : Config) with siteName := "Docs", siteUrl := some "https://docs.test" }

theorem validateSite_devAddr_addressedSite :
    { addressedSite with devAddr := "[::1]:+0008000" }.validateSite = .ok () ∧
    { addressedSite with devAddr := "localhost:000" }.validateSite = .error (.invalid .portZero) ∧
    { addressedSite with devAddr := "localhost:65536" }.validateSite =
      .error (.invalid (.notHostPort "localhost:65536")) := by
  have hname : Text.HasContent addressedSite.siteName := ⟨'D', by decide, by decide⟩
  have hsite : ∀ url ∈ addressedSite.siteUrl, IsWebAddress url := by
    rintro url ⟨⟩
    exact .inr ⟨"docs.test".toList, rfl⟩
  have hrepo : ∀ url ∈ addressedSite.repoUrl, IsWebAddress url := by
    rintro url ⟨⟩
  have hcheck := validateSite_devAddr hname hsite hrepo
  have hpast : addressPort? "localhost:65536" = none := by rfl
  refine ⟨(hcheck _).1.mpr ⟨8000, by decide, by decide, ?_⟩, (hcheck _).2.1.mpr ?_,
    (hcheck _).2.2.1.mpr fun port hport => ?_⟩
  · exact addressPort?_eq_some.mp (by rfl)
  · exact addressPort?_eq_some.mp (by rfl)
  · simp [← addressPort?_eq_some, hpast] at hport

end Config
end SitePlan
