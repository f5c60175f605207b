import Mathlib.Tactic.SplitIfs
import MetricsBridge.Backend.Request
import MetricsBridge.Proofs.Success
import MetricsBridge.Proofs.Text.Base64
import MetricsBridge.Proofs.Text.Split
import MetricsBridge.Proofs.Text.Utf8
import MetricsBridge.Url.Parse

/-!
# Credentials in addresses

An address may carry a user and a password in front of its host.  They become a header of the
request (`takeAuthorization_fst`), and from the value of that header they can be told
(`basicValue_injective`).  An address that is written without an `@` carries none
(`userInfo_of_parse`).
-/
namespace MetricsBridge

/-- The value of the header for a user and a password with a colon between them. -/
def basicValue (info : Text) : Text :=
  "Basic ".toList ++ Base64.encode (Utf8.encode info)

theorem basicValue_injective {s t : Text} (h : basicValue s = basicValue t) : s = t :=
  Utf8.encode_injective (Base64.encode_injective (List.append_cancel_left h))

theorem map_basicValue_injective {s t : Option Text}
    (h : (s.map basicValue).toList = (t.map basicValue).toList) : s = t := by
  cases s with
  | none =>
    cases t with
    | none => rfl
    | some t => cases h
  | some s =>
    cases t with
    | none => cases h
    | some t => rw [basicValue_injective (List.cons.inj h).1]

namespace Url

/-- The user and the password that an address carries, with a colon between them.  A user that is no
text does not count, nor does a password that is no text. -/
def userInfo (u : Url) : Option Text :=
  match Percent.decode? u.user, u.password.bind Percent.decode? with
  | none, _ => none
  | some [], none => none
  | some user, password => some (user ++ ':' :: password.getD [])

/-- **The credentials of an address are one header, or none.** -/
theorem takeAuthorization_fst (u : Url) : u.takeAuthorization.1 =
    (u.userInfo.map fun info => ⟨Header.authorization, basicValue info⟩).toList := by
  unfold takeAuthorization userInfo
  cases Percent.decode? u.user with
  | none => rfl
  | some user =>
    cases u.password.bind Percent.decode? with
    | none => cases user <;> rfl
    | some password => cases user <;> rfl

/-! ### Addresses without credentials -/

theorem takeCredentials_of_not_mem {isWeb : Bool} {t : Text} (h : '@' ∉ t) :
    takeCredentials isWeb t = .ok (⟨[], none⟩, t) := by
  have hfront : '@' ∉ t.takeWhile fun c => !endsAuthority isWeb c :=
    fun hm => h (List.takeWhile_subset _ hm)
  rw [takeCredentials, Text.cutAtLast_of_not_mem hfront]

theorem takeAuthority_of_not_mem {isWeb : Bool} {t : Text} (h : '@' ∉ t) {credentials : Credentials}
    {host rest : Text} {portNumber : Option Nat}
    (hauth : takeAuthority isWeb t = .ok (credentials, host, portNumber, rest)) :
    credentials = ⟨[], none⟩ := by
  unfold takeAuthority at hauth
  obtain ⟨⟨front, behind⟩, hfront, hauth⟩ := bind_eq_ok.mp hauth
  rw [takeCredentials_of_not_mem h] at hfront
  cases hfront
  dsimp only at hauth
  split at hauth
  · obtain ⟨_, hthrow, -⟩ := bind_eq_ok.mp hauth
    exact absurd hthrow throw_ne_ok
  split at hauth
  -- Whichever kind of host it is, the credentials are passed on as they are.
  all_goals
    obtain ⟨_, -, hauth⟩ := bind_eq_ok.mp hauth
    split at hauth
    · split_ifs at hauth
      · obtain ⟨_, hthrow, -⟩ := bind_eq_ok.mp hauth
        exact absurd hthrow throw_ne_ok
      · obtain ⟨_, -, hauth⟩ := bind_eq_ok.mp hauth
        cases pure_eq_ok.mp hauth
        rfl
    · cases pure_eq_ok.mp hauth
      rfl

theorem userInfo_of_parseWeb {scheme : Scheme} {t : Text} {u : Url} (ht : '@' ∉ t)
    (h : parseWeb scheme t = .ok u) : u.userInfo = none := by
  have hrest : '@' ∉ t.dropWhile fun c => c == '/' || c == '\\' :=
    fun hm => ht (List.dropWhile_subset _ hm)
  unfold parseWeb at h
  obtain ⟨⟨credentials, host, portNumber, rest⟩, hauth, h⟩ := bind_eq_ok.mp h
  have hcred := takeAuthority_of_not_mem hrest hauth
  have hu := pure_eq_ok.mp h
  subst hu hcred
  rfl

theorem mem_of_mem_clean {c : Char} {t : Text} (h : c ∈ clean t) : c ∈ t := by
  have hmid := (List.mem_filter.mp h).1
  rw [List.mem_reverse] at hmid
  exact List.dropWhile_subset _ (List.mem_reverse.mp (List.dropWhile_subset _ hmid))

theorem mem_of_mem_trim {c : Char} {t : Text} (h : c ∈ Text.trim t) : c ∈ t := by
  rw [Text.trim, Text.trimEnd, List.mem_reverse] at h
  exact List.dropWhile_subset _ (List.mem_reverse.mp (List.dropWhile_subset _ h))

theorem mem_of_splitScheme? {t scheme rest : Text} (h : splitScheme? t = some (scheme, rest))
    {c : Char} (hc : c ∈ rest) : c ∈ t := by
  unfold splitScheme? at h
  dsimp only at h
  split at h
  · rename_i a _ b hname hdrop
    split_ifs at h
    cases h
    exact List.drop_subset _ _ (hdrop ▸ List.mem_cons_of_mem _ hc)
  · cases h

/-- **An address that is written without an `@` carries no credentials.** -/
theorem userInfo_of_parse {t : Text} {u : Url} (ht : '@' ∉ t) (h : parse t = .ok u) :
    u.userInfo = none := by
  unfold parse at h
  split at h
  · cases h
  · rename_i scheme rest hsplit
    have hrest : '@' ∉ rest := fun hm =>
      ht (mem_of_mem_trim (mem_of_mem_clean (mem_of_splitScheme? hsplit hm)))
    split_ifs at h
    · exact userInfo_of_parseWeb hrest h
    · exact userInfo_of_parseWeb hrest h
    · obtain ⟨-, -, h⟩ := bind_eq_ok.mp h
      exact absurd h throw_ne_ok

end Url

end MetricsBridge
