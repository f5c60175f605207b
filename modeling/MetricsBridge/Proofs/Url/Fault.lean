import Mathlib.Data.List.TakeWhile
import Mathlib.Tactic.SplitIfs
import MetricsBridge.Proofs.Success
import MetricsBridge.Url.Parse

/-!
# How faults of addresses are worded

The wording of what is wrong with an address holds nothing of the address but its scheme.  So no `@`
is in it (`discreet_parse`), and with it no user and password.
-/
namespace MetricsBridge.Url

variable {α β : Type}

/-- What goes wrong, if anything does, is worded without an `@`. -/
def Discreet (x : Except Fault α) : Prop :=
  ∀ fault, x = .error fault → '@' ∉ fault.message

namespace Discreet

theorem ok (a : α) : Discreet (.ok a : Except Fault α) := by
  rintro fault ⟨⟩

theorem error {fault : Fault} (h : '@' ∉ fault.message) :
    Discreet (.error fault : Except Fault α) := by
  rintro _ ⟨⟩
  exact h

theorem bind {x : Except Fault α} {f : α → Except Fault β} (hx : Discreet x)
    (hf : ∀ a, Discreet (f a)) : Discreet (x >>= f) := by
  intro fault h
  rcases bind_eq_error.mp h with h | ⟨a, -, h⟩
  · exact hx fault h
  · exact hf a fault h

theorem ite {c : Prop} [Decidable c] {x y : Except Fault α} (hx : Discreet x) (hy : Discreet y) :
    Discreet (if c then x else y) := by
  split_ifs
  · exact hx
  · exact hy

end Discreet

theorem discreet_bracketed (t : Text) : Discreet (bracketed t) := by
  unfold bracketed
  split
  · split
    · exact .ok _
    · exact .error (by decide)
  · exact .error (by decide)

theorem discreet_parseIpv4 (t : Text) : Discreet (parseIpv4 t) := by
  unfold parseIpv4
  split
  · exact .error (by decide)
  · split
    · exact .ok _
    · exact .error (by decide)

theorem discreet_parseHost (t : Text) : Discreet (parseHost t) := by
  unfold parseHost
  split
  · exact discreet_bracketed _
  · split
    · exact .error (by decide)
    · refine .ite (.error (by decide)) (.ite (.error (by decide)) (.ite ?_ (.ok _)))
      exact discreet_parseIpv4 _

theorem discreet_parseForeignHost (t : Text) : Discreet (parseForeignHost t) := by
  unfold parseForeignHost
  split
  · exact discreet_bracketed _
  · exact .ite (.error (by decide)) (.ok _)

theorem discreet_takeCredentials (isWeb : Bool) (t : Text) :
    Discreet (takeCredentials isWeb t) := by
  unfold takeCredentials
  dsimp only
  split
  · exact .ok _
  · exact .ite (.error (by decide)) (.ok _)
  · exact .ok _

theorem discreet_takePortNumber (t : Text) : Discreet (takePortNumber t) := by
  unfold takePortNumber
  refine .ite (.error (by decide)) ?_
  split
  · exact .ok _
  · exact .ite (.ok _) (.error (by decide))

theorem discreet_takeAuthority (isWeb : Bool) (t : Text) : Discreet (takeAuthority isWeb t) := by
  unfold takeAuthority
  refine .bind (discreet_takeCredentials isWeb t) fun ⟨credentials, t⟩ => ?_
  have hempty : ∀ {α}, Discreet (.error .emptyHost : Except Fault α) := .error (by decide)
  have hhost : ∀ name, Discreet (if isWeb then parseHost name else parseForeignHost name) :=
    fun name => .ite (discreet_parseHost name) (discreet_parseForeignHost name)
  dsimp only
  refine .ite hempty ?_
  have hname := hhost (t.take (hostLength isWeb false t))
  split_ifs at hname ⊢
  all_goals
    refine .bind hname fun host => ?_
    split
    · exact .ite hempty (.bind (discreet_takePortNumber _) fun _ => .ok _)
    · exact .ok _

theorem discreet_parseWeb (scheme : Scheme) (t : Text) : Discreet (parseWeb scheme t) :=
  .bind (discreet_takeAuthority true _) fun _ => .ok _

theorem discreet_checkFileHost (t : Text) : Discreet (checkFileHost t) := by
  unfold checkFileHost
  split
  · refine .ite (.ite (.ok _) ?_) (.ok _)
    exact .bind (discreet_parseHost _) fun _ => .ok _
  · exact .ok _

theorem discreet_checkForeign (scheme t : Text) : Discreet (checkForeign scheme t) := by
  unfold checkForeign
  split_ifs
  · exact .bind (discreet_takeAuthority true _) fun _ => .ok _
  · exact discreet_checkFileHost t
  · split
    · refine .bind (discreet_takeAuthority false _) fun _ => ?_
      exact .ite (.error (by decide)) (.ok _)
    · exact .ok _

theorem lowerAscii_ne_sign {c : Char} (hc : inScheme c = true) : Text.lowerAscii c ≠ '@' := by
  unfold Text.lowerAscii
  split_ifs with h
  · -- a small letter comes behind the sign
    intro hsign
    have hvalid : (c.toNat + 32).isValidChar := by
      have hZ : c.toNat ≤ 90 := h.2
      left
      omega
    rw [Char.ofNat, dif_pos hvalid] at hsign
    have hcode : c.toNat + 32 = 64 := congrArg Char.toNat hsign
    have hA : 65 ≤ c.toNat := h.1
    omega
  · rintro rfl
    exact absurd hc (by decide)

theorem sign_notMem_scheme {t scheme rest : Text} (h : splitScheme? t = some (scheme, rest)) :
    '@' ∉ scheme := by
  unfold splitScheme? at h
  dsimp only at h
  split at h
  · next c name rest' hname _ =>
    split_ifs at h
    obtain ⟨rfl, rfl⟩ : Text.toLowerAscii _ = scheme ∧ rest' = rest := by simpa using h
    intro hmem
    obtain ⟨d, hd, hsign⟩ := List.mem_map.mp hmem
    exact lowerAscii_ne_sign (List.mem_takeWhile_imp hd) hsign
  · simp at h

theorem sign_notMem_unsupported {name : Text} (h : '@' ∉ name) :
    '@' ∉ (Fault.unsupportedScheme name).message := by
  have hstart : '@' ∉ "unsupported scheme '".toList := by decide
  have hend : '@' ∉ ['\''] := by decide
  intro hmem
  rcases List.mem_append.mp hmem with hmem | hmem
  · rcases List.mem_append.mp hmem with hmem | hmem
    · exact hstart hmem
    · exact h hmem
  · exact hend hmem

/-- **What is wrong with an address is said without an `@`**, whatever the address is. -/
theorem discreet_parse (t : Text) : Discreet (parse t) := by
  unfold parse
  split
  · exact .error (by decide)
  · next scheme rest hs =>
    have hmark := sign_notMem_unsupported (sign_notMem_scheme hs)
    split_ifs
    · exact discreet_parseWeb _ _
    · exact discreet_parseWeb _ _
    · exact .bind (discreet_checkForeign scheme rest) fun _ => .error hmark

end MetricsBridge.Url
