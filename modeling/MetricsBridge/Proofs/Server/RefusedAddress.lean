import MetricsBridge.Proofs.Server.Calling
import MetricsBridge.Proofs.Server.Redaction
import MetricsBridge.Proofs.Url.Fault

/-!
# Addresses that are refused

The error text of a call whose address cannot be read quotes the address, and redaction has to take
the user and the password out of it.  `refused_login` says when it does: the pattern of addresses
knows the schemes of the web only, and no password with a slash or a blank.
-/
namespace MetricsBridge

open Redaction

/-- An address with a user and a password. -/
structure LoginAddress where
  scheme : Text
  user : Text
  password : Text
  rest : Text
  inScheme : ∀ c ∈ scheme, Url.inScheme c = true
  user_ne : user ≠ []
  inUser : ∀ c ∈ user, inUser c = true
  password_ne : password ≠ []
  sign_notMem_password : '@' ∉ password

namespace LoginAddress

/-- The user and the password with what ends them. -/
def login (a : LoginAddress) : Text :=
  a.user ++ ':' :: a.password ++ ['@']

/-- The address. -/
def text (a : LoginAddress) : Text :=
  a.scheme ++ "://".toList ++ a.login ++ a.rest

/-- The pattern of addresses knows the login: the scheme ends in one of the web, and the password
has neither a slash nor a blank. -/
def IsKnown (a : LoginAddress) : Prop :=
  ("http".toList <:+ lower a.scheme ∨ "https".toList <:+ lower a.scheme) ∧
    a.password.all inPassword = true

instance (a : LoginAddress) : Decidable a.IsKnown :=
  inferInstanceAs (Decidable (_ ∧ _))

/-- The error text of a call with the address, before secrets are hidden. -/
def refusal (a : LoginAddress) (fault : Url.Fault) : Text :=
  (ToolError.noClient (.invalidUrl a.text fault.message)).message

/-- What stands in front of the address in the error text. -/
def refusalStart : Text :=
  "Error creating Prometheus client: ".toList ++ "invalid Prometheus URL '".toList

/-- What stands behind the address in the error text. -/
def refusalEnd (fault : Url.Fault) : Text :=
  "': ".toList ++ fault.message

theorem refusal_eq (a : LoginAddress) (fault : Url.Fault) :
    a.refusal fault = refusalStart ++ a.text ++ refusalEnd fault := by
  change "Error creating Prometheus client: ".toList ++
    ("invalid Prometheus URL '".toList ++ a.text ++ "': ".toList ++ fault.message) = _
  unfold refusalStart refusalEnd
  simp only [List.append_assoc]

/-! ### Logins that the pattern knows -/

theorem sign_notMem_scheme (a : LoginAddress) : '@' ∉ a.scheme :=
  fun h => absurd (a.inScheme _ h) (by decide)

theorem IsKnown.inPassword {a : LoginAddress} (h : a.IsKnown) :
    ∀ c ∈ a.password, inPassword c = true :=
  List.all_eq_true.mp h.2

theorem IsKnown.isPair {a : LoginAddress} (h : a.IsKnown) : IsPair a.login where
  colon := by simp [login]
  slash := by
    have hpair : '/' ∉ a.user ++ ':' :: a.password :=
      notMem_pair a.inUser h.inPassword (by decide) (by decide)
    simpa [login] using hpair
  blank := by
    have hpair : ' ' ∉ a.user ++ ':' :: a.password :=
      notMem_pair a.inUser h.inPassword (by decide) (by decide)
    simpa [login] using hpair
  sign := by
    intro v hv hsign
    have huser : '@' ∉ a.user := fun h => absurd (a.inUser _ h) (by decide)
    rcases List.prefix_concat_iff.mp hv with hv | hv
    · exact hv
    · have hmem := hv.mem hsign
      simp [huser, a.sign_notMem_password] at hmem

theorem IsKnown.text_eq {a : LoginAddress} (h : a.IsKnown) : ∃ (l : WebLogin) (front : Text),
    a.scheme = front ++ l.scheme ∧ a.text = front ++ l.text ++ a.rest := by
  have hweb : ∃ web, IsWeb web ∧ web <:+ a.scheme := by
    rcases h.1 with hs | hs
    · obtain ⟨web, hweb, hhttp⟩ := List.suffix_map_iff.mp hs
      exact ⟨web, .inl hhttp.symm, hweb⟩
    · obtain ⟨web, hweb, hhttps⟩ := List.suffix_map_iff.mp hs
      exact ⟨web, .inr hhttps.symm, hweb⟩
  obtain ⟨web, hweb, front, hfront⟩ := hweb
  let l : WebLogin :=
    ⟨web, a.user, a.password, hweb, a.user_ne, a.inUser, a.password_ne, h.inPassword⟩
  exact ⟨l, front, hfront.symm, by simp [l, text, login, WebLogin.text, WebLogin.pair, ← hfront]⟩

/-- **The error text does not show a login that the pattern knows**, unless the rest of the address
does, or the login runs into the mask. -/
theorem IsKnown.shows_rest {a : LoginAddress} (h : a.IsKnown) {fault : Url.Fault}
    (hfault : '@' ∉ fault.message) (hm : ¬ MeetsMask a.login)
    (hshown : Shows (redact (a.refusal fault)) a.login) : Shows a.rest a.login := by
  obtain ⟨l, front, hscheme, htext⟩ := h.text_eq
  have hsplit : a.refusal fault =
      (refusalStart ++ front) ++ l.text ++ (a.rest ++ refusalEnd fault) := by
    rw [refusal_eq, htext]
    simp
  rw [hsplit, redact_login] at hshown
  have hsign : '@' ∈ lower a.login := (mem_lower rfl).mpr (by simp [login])
  rcases shows_of_masked h.isPair l (shows_of_redact h.isPair hm hshown) with hs | hs
  · -- in front of the slashes there is no sign
    have hno : '@' ∉ refusalStart ++ front ++ l.scheme ++ [':'] := by
      have hstart : '@' ∉ refusalStart := by decide
      have hfront := a.sign_notMem_scheme
      rw [hscheme] at hfront
      simpa [hstart] using hfront
    exact absurd ((mem_lower rfl).mp (hs.mem hsign)) hno
  · have hend : '@' ∉ lower (refusalEnd fault) := by
      rw [mem_lower rfl, refusalEnd, List.mem_append, not_or]
      exact ⟨by decide, hfault⟩
    have hlogin : lower a.login = lower (a.user ++ ':' :: a.password) ++ ['@'] := by
      simp [login]
      decide
    unfold Shows at hs ⊢
    rw [lower_append, hlogin] at hs
    rw [hlogin]
    exact Text.infix_append_of_last hend hs

/-! ### Logins that the pattern does not know -/

/-- What is written in front of the address ends in a quote, which is in no scheme. -/
theorem suffix_scheme {web scheme : Text} (hweb : IsWeb web) (h : web <:+ refusalStart ++ scheme) :
    web <:+ scheme := by
  have hend : refusalStart.dropLast ++ ['\''] = refusalStart := by decide
  have hquote : '\'' :: scheme <:+ refusalStart ++ scheme :=
    ⟨refusalStart.dropLast, (List.append_cons _ _ _).trans (congrArg (· ++ scheme) hend)⟩
  have hno : '\'' ∉ web := hweb.notMem '\'' rfl
  rcases List.suffix_or_suffix_of_suffix h hquote with h | h
  · rcases List.suffix_cons_iff.mp h with rfl | h
    · exact absurd List.mem_cons_self hno
    · exact h
  · exact absurd (h.mem List.mem_cons_self) hno

/-- A login that the pattern does not know is none, and there is no other in the error text. -/
theorem not_infix_of_not_isKnown {a : LoginAddress} (h : ¬ a.IsKnown) {fault : Url.Fault}
    (hfault : '@' ∉ fault.message) (hrest : '@' ∉ a.rest)
    (hpassword : ¬ "://".toList <:+: ':' :: a.password) (l : WebLogin) :
    ¬ l.text <:+: a.refusal fault := by
  intro hl
  have hsplit : a.refusal fault =
      (refusalStart ++ a.scheme ++ [':', '/'] ++ '/' :: (a.user ++ ':' :: a.password)) ++
        '@' :: (a.rest ++ refusalEnd fault) := by
    rw [refusal_eq]
    simp [text, login]
  have hfront : '@' ∉ refusalStart ++ a.scheme ++ [':', '/'] ++
      '/' :: (a.user ++ ':' :: a.password) := by
    have hstart : '@' ∉ refusalStart := by decide
    have huser : '@' ∉ a.user := fun h => absurd (a.inUser _ h) (by decide)
    simp [hstart, a.sign_notMem_scheme, huser, a.sign_notMem_password]
  have hback : '@' ∉ a.rest ++ refusalEnd fault := by
    have hwords : '@' ∉ "': ".toList := by decide
    rw [refusalEnd]
    simp only [List.mem_append, not_or]
    exact ⟨hrest, hwords, hfault⟩
  rw [hsplit] at hl
  obtain ⟨k, hk⟩ := l.suffix_of_infix hfront hback hl
  by_cases hslash : '/' ∈ a.password
  · -- the slashes of the login would be in the password
    obtain ⟨p, q, hpq, hq⟩ := Text.exists_last_of_mem hslash
    have heq : (k ++ l.scheme ++ [':', '/']) ++ '/' :: l.pair =
        (refusalStart ++ a.scheme ++ "://".toList ++ a.user ++ ':' :: p) ++ '/' :: q := by
      simpa [hpq] using hk
    have hp := ((Text.append_cons_inj_right l.slash_notMem_pair hq).mp heq).1
    have hend : [':', '/'] <:+ ':' :: p := by
      cases p with
      | nil =>
        have hlast : (k ++ l.scheme ++ [':'] ++ ['/']).getLast? = some ':' := by
          rw [List.append_assoc _ [':']]
          exact hp ▸ List.getLast?_concat
        simp at hlast
      | cons c p =>
        exact List.suffix_of_suffix_length_le ⟨_, hp⟩ (List.suffix_append _ _) (by simp)
    obtain ⟨s, hs⟩ := hend
    refine hpassword ⟨s, q, ?_⟩
    rw [hpq, ← List.cons_append, ← hs]
    simp
  · have huser : '/' ∉ a.user := fun h => absurd (a.inUser _ h) (by decide)
    have hpair : '/' ∉ a.user ++ ':' :: a.password := by simp [huser, hslash]
    have heq : (k ++ l.scheme ++ [':', '/']) ++ '/' :: l.pair =
        (refusalStart ++ a.scheme ++ [':', '/']) ++ '/' :: (a.user ++ ':' :: a.password) := by
      simpa using hk
    obtain ⟨hs, hsame⟩ := (Text.append_cons_inj_right l.slash_notMem_pair hpair).mp heq
    have hcolon : ':' ∉ a.user := fun h => absurd (a.inUser _ h) (by decide)
    have hcolon' : ':' ∉ l.user := fun h => absurd (l.inUser _ h) (by decide)
    have hpw : l.password = a.password := ((Text.append_cons_inj hcolon' hcolon).mp hsame).2
    have hweb : l.scheme <:+ refusalStart ++ a.scheme :=
      ⟨k, List.append_left_injective [':', '/'] (by simpa using hs)⟩
    have hlow : lower l.scheme <:+ lower a.scheme :=
      (suffix_scheme l.isWeb hweb).map foldLetter
    refine h ⟨?_, List.all_eq_true.mpr (hpw ▸ l.inPassword)⟩
    rcases l.isWeb with hw | hw
    · exact .inl (hw ▸ hlow)
    · exact .inr (hw ▸ hlow)

end LoginAddress

/-- A call whose address is refused sends nothing, and its error text is the wording of that. -/
theorem run_of_bad_address {c : Config} {name : Text} {args : Arguments} {tool : Tool} {url : Text}
    {fault : Url.Fault} (hfind : Tool.find? name = some tool) (hoffer : c.offersTool tool = true)
    (hurl : effectiveUrl c args = some url) (hbad : Url.parse url = .error fault)
    (server : Backend) : (dispatch c name args).run server =
      ⟨[], some ⟨redact (ToolError.noClient (.invalidUrl url fault.message)).message, true⟩⟩ := by
  have hclient : Client.forCall (some Program.agent) c.connection args.url args.orgId =
      .error (.invalidUrl url fault.message) := by
    unfold effectiveUrl at hurl
    simp [Client.forCall, Connection.resolve, hurl, Client.connect, hbad, bind, Except.bind]
  simp only [dispatch, execute, hfind, hoffer, hclient]
  rfl

/-- **A refused address shows its login where the pattern of addresses does not know it.**  The call
sends nothing.  If the scheme ends in one of the web and the password has neither a slash nor a
blank, the error text does not show the user and the password, unless the rest of the address does
or they run into the mask.  Otherwise it does show them, if the text is quiet and has no other
address in it. -/
theorem refused_login {c : Config} {name : Text} {args : Arguments} {tool : Tool}
    {a : LoginAddress} {fault : Url.Fault} (hfind : Tool.find? name = some tool)
    (hoffer : c.offersTool tool = true) (hurl : effectiveUrl c args = some a.text)
    (hbad : Url.parse a.text = .error fault) (server : Backend) :
    ∃ text, (dispatch c name args).run server = ⟨[], some ⟨text, true⟩⟩ ∧
      (a.IsKnown → Shows text a.login → Shows a.rest a.login ∨ MeetsMask a.login) ∧
      (¬ a.IsKnown → Quiet (a.refusal fault) → '@' ∉ a.rest →
        ¬ "://".toList <:+: ':' :: a.password → a.login <:+: text) := by
  have hfault : '@' ∉ fault.message := Url.discreet_parse _ _ hbad
  refine ⟨redact (a.refusal fault), run_of_bad_address hfind hoffer hurl hbad server, ?_, ?_⟩
  · intro hknown hshown
    by_cases hm : MeetsMask a.login
    · exact .inr hm
    · exact .inl (hknown.shows_rest hfault hm hshown)
  · intro hunknown hquiet hrest hpassword
    have hleft : redact (a.refusal fault) = a.refusal fault := redact_eq_self hquiet fun l =>
      LoginAddress.not_infix_of_not_isKnown hunknown hfault hrest hpassword l
    rw [hleft, LoginAddress.refusal_eq, LoginAddress.text]
    exact ⟨LoginAddress.refusalStart ++ (a.scheme ++ "://".toList),
      a.rest ++ LoginAddress.refusalEnd fault, by simp⟩

/-- An address of the web with a password. -/
def addressWithPassword (password : String) (hne : password.toList ≠ [])
    (hsign : '@' ∉ password.toList) : LoginAddress where
  scheme := "http".toList
  user := "admin".toList
  password := password.toList
  rest := "h:99999".toList
  inScheme := List.all_eq_true.mp rfl
  user_ne := List.ne_nil_of_length_eq_add_one (rfl : "admin".toList.length = 5)
  inUser := List.all_eq_true.mp rfl
  password_ne := hne
  sign_notMem_password := hsign

/-- Arguments that give the address alone. -/
def LoginAddress.arguments (a : LoginAddress) : Arguments :=
  [("prometheus_url".toList, .text a.text)]

/-- A password with a slash. -/
def slashAddress : LoginAddress :=
  addressWithPassword "pa/ss" (by decide) (by decide)

/-- A password that the pattern of addresses knows. -/
def plainAddress : LoginAddress :=
  addressWithPassword "hunter2" (by decide) (by decide)

/-- A password with a slash is shown, and one without it is not. -/
theorem refused_login_of_slash :
    (∃ text, (dispatch {} "get_alerts".toList slashAddress.arguments).run Backend.offline =
        ⟨[], some ⟨text, true⟩⟩ ∧ "admin:pa/ss@".toList <:+: text) ∧
      ∃ text, (dispatch {} "get_alerts".toList plainAddress.arguments).run Backend.offline =
        ⟨[], some ⟨text, true⟩⟩ ∧ ¬ Shows text "admin:hunter2@".toList := by
  have hfind : Tool.find? "get_alerts".toList = some .getAlerts := find?_name .getAlerts
  have hoffer : ({} : Config).offersTool .getAlerts = true := by decide
  constructor
  · have hurl : effectiveUrl {} slashAddress.arguments = some slashAddress.text := by decide
    have hbad : Url.parse slashAddress.text = .error .invalidPortNumber := by decide +kernel
    obtain ⟨text, hrun, -, hshown⟩ := refused_login hfind hoffer hurl hbad Backend.offline
    exact ⟨text, hrun, hshown (by decide) (by decide +kernel) (by decide) (by decide)⟩
  · have hurl : effectiveUrl {} plainAddress.arguments = some plainAddress.text := by decide
    have hbad : Url.parse plainAddress.text = .error .invalidPortNumber := by decide +kernel
    obtain ⟨text, hrun, hhidden, -⟩ := refused_login hfind hoffer hurl hbad Backend.offline
    refine ⟨text, hrun, fun hs => ?_⟩
    rcases hhidden (by decide) hs with h | h
    · exact absurd h (by decide)
    · exact absurd h (not_meetsMask (by decide) (by decide))

end MetricsBridge
