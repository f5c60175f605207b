import MetricsBridge.Proofs.Server.Calling
import MetricsBridge.Proofs.Server.Redaction
import MetricsBridge.Proofs.Text.Trim

/-!
# Pages that are no envelopes

The error text of a call that is answered by a page quotes the page, and a long page is cut before
redaction.  `page_login` says what becomes of an address with a user and a password in the page: the
cut can take the `@` away by which redaction knows them, and then they are shown.
-/
namespace MetricsBridge

open Redaction

/-! ### Logins in a page -/

/-- An address with a user and a password in a text.  Either may be empty. -/
structure QuotedLogin (body : Text) where
  before : Text
  scheme : Text
  user : Text
  password : Text
  after : Text
  isWeb : IsWeb scheme
  inUser : ∀ c ∈ user, inUser c = true
  inPassword : ∀ c ∈ password, inPassword c = true
  body_eq : body = before ++ scheme ++ "://".toList ++ user ++ ':' :: password ++ '@' :: after

namespace QuotedLogin

variable {body : Text} (l : QuotedLogin body)

/-- The user and the password. -/
def pair : Text :=
  l.user ++ ':' :: l.password

/-- The address up to the password. -/
def start : Text :=
  l.scheme ++ [':', '/'] ++ '/' :: l.pair

/-- The page without blanks at its ends still holds the address. -/
theorem trim_eq : Text.trim body =
    Text.trimStart l.before ++ l.start ++ '@' :: Text.trimEnd l.after := by
  obtain ⟨h, s, hs⟩ := List.exists_cons_of_ne_nil l.isWeb.ne_nil
  have hh : isBlank h = false := isBlank_of_letter (l.isWeb.isLetter (by simp [hs]))
  have hsplit : body = l.before ++ h :: (s ++ "://".toList ++ l.pair ++ '@' :: l.after) :=
    l.body_eq.trans (by simp [hs, pair])
  have hstart := congrArg Text.trimStart hsplit
  rw [Text.trimStart_append_cons hh] at hstart
  have hend : Text.trimStart l.before ++ h :: (s ++ "://".toList ++ l.pair ++ '@' :: l.after) =
      (Text.trimStart l.before ++ l.start) ++ '@' :: l.after := by
    simp [start, hs]
  rw [Text.trim, hstart, hend, Text.trimEnd_append_cons (by decide)]

theorem slash_notMem_pair : '/' ∉ l.pair :=
  notMem_pair l.inUser l.inPassword (by decide) (by decide)

theorem sign_notMem_pair : '@' ∉ l.pair :=
  notMem_pair l.inUser l.inPassword (by decide) (by decide)

theorem isPair : IsPair l.pair where
  colon := by simp [pair]
  slash := l.slash_notMem_pair
  blank := notMem_pair l.inUser l.inPassword (by decide) (by decide)
  sign v hv hsign := absurd (hv.mem hsign) l.sign_notMem_pair

/-- The text shows the user and the password apart from the address. -/
def IsElsewhere : Prop :=
  Shows (l.before ++ l.scheme ++ [':']) l.pair ∨ Shows l.after l.pair

end QuotedLogin

/-- The cut takes away what follows the user and the password, or makes them up: the text ends in
front of a dot of the ellipsis where the cut is. -/
def CutBehind (w body : Text) : Prop :=
  Envelope.bodyLimit < Text.byteLength (Text.trim body) ∧
    ∃ x dots, dots <+: "...".toList ∧ lower w = x ++ dots ∧
      x <:+ lower ((Text.trim body).takeBytes Envelope.bodyLimit)

/-! ### Calls that are answered by a page -/

/-- A tool call that is answered by a failure and a page that is no envelope. -/
structure ErrorPage (c : Config) (name : Text) (args : Arguments) (server : Backend) where
  tool : Tool
  client : Client
  job : Job
  call : Call job.Data
  request : Request
  status : Nat
  body : Text
  readError : Json.ReadError
  found : Tool.find? name = some tool
  offered : c.offersTool tool = true
  connected : Client.forCall (some Program.agent) c.connection args.url args.orgId = .ok client
  asked : tool.job args = .ok job
  called : job.call = .ok call
  built : client.request call = .ok request
  answered : server [request] = some (.replied status body)
  failed : ¬ (200 ≤ status ∧ status < 300)
  unread : Envelope.read call.shape body = .error readError

namespace ErrorPage

variable {c : Config} {name : Text} {args : Arguments} {server : Backend}

/-- The error text of the call, before secrets are hidden. -/
def message (page : ErrorPage c name args server) : Text :=
  (ToolError.failed page.job.action (.status page.status (Envelope.excerpt page.body))).message

/-- What stands in front of the page in the error text. -/
def messageStart (page : ErrorPage c name args server) : Text :=
  "Error ".toList ++ page.job.action ++ ": ".toList ++
    ("server returned HTTP ".toList ++ Text.ofNat page.status ++ ": ".toList)

theorem message_eq (page : ErrorPage c name args server) :
    page.message = page.messageStart ++ Envelope.excerpt page.body := by
  change "Error ".toList ++ page.job.action ++ ": ".toList ++ ("server returned HTTP ".toList ++
    Text.ofNat page.status ++ ": ".toList ++ Envelope.excerpt page.body) = _
  unfold messageStart
  simp only [List.append_assoc]

/-- The call sends its request, and its error text is the wording of the failure. -/
theorem run_eq (page : ErrorPage c name args server) : (dispatch c name args).run server =
    ⟨[⟨page.request, some (.replied page.status page.body)⟩],
      some ⟨redact page.message, true⟩⟩ := by
  have hreceive : Client.receive page.call.shape page.request
      (.replied page.status page.body) =
        .error (.status page.status (Envelope.excerpt page.body)) := by
    simp [Client.receive, Envelope.interpret, page.unread, page.failed]
  rw [dispatch, Plan.run_map, execute]
  simp only [page.found, page.offered, page.connected, Bool.not_true, Bool.false_eq_true, if_false]
  rw [Plan.run_map, Tool.perform]
  simp only [page.asked]
  rw [Job.perform, page.called, Plan.run_map, Client.attempt,
    Client.run_perform page.built page.answered, hreceive]
  rfl

theorem notMem_ofNat {mark : Char} (hm : mark.isDigit = false) (n : Nat) : mark ∉ Text.ofNat n := by
  intro h
  rw [Nat.isDigit_of_mem_toDigits (by decide) (by decide) h] at hm
  exact absurd hm (by simp)

/-- In a wording `before action: server status: e`, whose words have no colon, only the name of the
action and the end can show a user and a password. -/
theorem shows_of_wording {before between mark action status e u v w : Text} (hw : IsPair w)
    (hwuv : w = u ++ ':' :: v) (hv : v ≠ []) (hbefore : ∃ a, ':' ∉ a ∧ lower before = a ++ [' '])
    (hbetween : ∃ a b c, ':' ∉ a ∧ ':' ∉ b ∧ ':' ∉ c ∧
      lower between = a ++ ' ' :: (b ++ ' ' :: (c ++ [' '])))
    (hmark : lower mark = [':', ' ']) (hstatus : ':' ∉ lower status)
    (h : Shows (before ++ action ++ mark ++ (between ++ status ++ mark) ++ e) w) :
    Shows (action ++ [':']) w ∨ Shows e w := by
  have hpair := isPair_lower hw
  obtain ⟨o, ho, hbefore⟩ := hbefore
  obtain ⟨a, b, c, ha, hb, hc, hbetween⟩ := hbetween
  have hsplit : lower (before ++ action ++ mark ++ (between ++ status ++ mark) ++ e) =
      o ++ ' ' :: ((lower action ++ [':']) ++ ' ' :: (a ++ ' ' :: (b ++ ' ' :: (c ++
        ' ' :: ((lower status ++ [':']) ++ ' ' :: lower e))))) := by
    simp [hbefore, hbetween, hmark]
  have hword : ∀ {word : Text}, ':' ∉ word → ¬ lower w <:+: word := fun hno h =>
    hno (h.mem hpair.colon)
  unfold Shows at h ⊢
  rw [hsplit] at h
  rcases Text.infix_append_cons hpair.blank h with h | h
  · exact absurd h (hword ho)
  rcases Text.infix_append_cons hpair.blank h with h | h
  · rw [lower_append]
    exact .inl h
  rcases Text.infix_append_cons hpair.blank h with h | h
  · exact absurd h (hword ha)
  rcases Text.infix_append_cons hpair.blank h with h | h
  · exact absurd h (hword hb)
  rcases Text.infix_append_cons hpair.blank h with h | h
  · exact absurd h (hword hc)
  rcases Text.infix_append_cons hpair.blank h with h | h
  · -- behind the colon of the status there is nothing
    obtain ⟨x, y, hxy⟩ := h
    have hcolon : foldLetter ':' = ':' := rfl
    have heq : lower status ++ ':' :: [] = (x ++ lower u) ++ ':' :: (lower v ++ y) := by
      simpa [hwuv, hcolon] using hxy.symm
    have hnil := ((List.append_cons_inj_of_notMem hstatus (by simp)).mp heq).2.2
    exact absurd (List.map_eq_nil_iff.mp (List.append_eq_nil_iff.mp hnil.symm).1) hv
  · exact .inr h

theorem shows_of_shows_message (page : ErrorPage c name args server) {e u v w : Text}
    (hw : IsPair w) (hwuv : w = u ++ ':' :: v) (hv : v ≠ [])
    (h : Shows (page.messageStart ++ e) w) : Shows (page.job.action ++ [':']) w ∨ Shows e w := by
  have hstatus : ':' ∉ lower (Text.ofNat page.status) := fun h =>
    notMem_ofNat rfl _ ((mem_lower rfl).mp h)
  refine shows_of_wording hw hwuv hv ⟨"error".toList, by decide, by decide⟩ ?_ (by decide) hstatus h
  exact ⟨"server".toList, "returned".toList, "http".toList, by decide, by decide, by decide,
    by decide⟩

end ErrorPage

/-! ### What becomes of a login in a page -/

/-- What is shown in front of the ellipsis and in it is shown in front of it, or comes from the
cut. -/
theorem shows_or_cutBehind {body w x : Text} (hw : IsPair w)
    (hlong : Envelope.bodyLimit < Text.byteLength (Text.trim body))
    (hx : x <:+ (Text.trim body).takeBytes Envelope.bodyLimit)
    (h : Shows (x ++ "...".toList) w) : Shows x w ∨ CutBehind w body := by
  have hdots : lower "...".toList = "...".toList := by decide
  unfold Shows at h
  rw [lower_append, hdots] at h
  rcases List.infix_append_iff.mp h with h | h | ⟨a, b, hab, ha, hb⟩
  · exact .inl h
  · exact absurd (h.mem (isPair_lower hw).colon) (by decide)
  · exact .inr ⟨hlong, a, b, hb, hab, ha.trans (hx.map foldLetter)⟩

namespace QuotedLogin

variable {body : Text} (l : QuotedLogin body)

/-- The login as the pattern of addresses finds it, if the user and the password are not empty. -/
def toWebLogin (huser : l.user ≠ []) (hpassword : l.password ≠ []) : WebLogin where
  scheme := l.scheme
  user := l.user
  password := l.password
  isWeb := l.isWeb
  user_ne := huser
  inUser := l.inUser
  password_ne := hpassword
  inPassword := l.inPassword

/-- In front of the slashes only the text in front of the address shows the user and the
password. -/
theorem isElsewhere_of_front (h : Shows (Text.trimStart l.before ++ l.scheme ++ [':']) l.pair) :
    l.IsElsewhere := by
  have hsuffix : Text.trimStart l.before ++ (l.scheme ++ [':']) <:+
      l.before ++ (l.scheme ++ [':']) :=
    List.suffix_append_self_iff.mpr (Text.trimStart_suffix l.before)
  rw [← List.append_assoc, ← List.append_assoc] at hsuffix
  exact .inl (h.mono hsuffix.isInfix)

/-- A start of the address, cut before its `@`, shows the user and the password when all of them is
in it. -/
theorem shows_of_cut {kept : Text} (hkept : kept <+: Text.trimStart l.before ++ l.start)
    (h : Shows kept l.pair) : l.IsElsewhere ∨ l.pair <:+ kept := by
  have hpair := isPair_lower l.isPair
  have hslashes : ∀ k, lower (Text.trimStart l.before ++ l.scheme ++ [':', '/'] ++ '/' :: k) =
      lower (Text.trimStart l.before ++ l.scheme ++ [':']) ++ '/' :: ([] ++ '/' :: lower k) := by
    intro k
    simp
    decide
  have hfront : ∀ k, Shows (Text.trimStart l.before ++ l.scheme ++ [':', '/'] ++ '/' :: k) l.pair →
      l.IsElsewhere ∨ Shows k l.pair := by
    intro k h
    unfold Shows at h
    rw [hslashes] at h
    rcases Text.infix_append_cons hpair.slash h with h | h
    · exact .inl (l.isElsewhere_of_front h)
    rcases Text.infix_append_cons hpair.slash h with h | h
    · exact absurd (h.mem hpair.colon) (by simp)
    · exact .inr h
  have hstart : Text.trimStart l.before ++ l.start =
      (Text.trimStart l.before ++ l.scheme ++ [':', '/'] ++ ['/']) ++ l.pair := by
    simp [start]
  rw [hstart] at hkept
  rcases List.prefix_or_prefix_of_prefix hkept (List.prefix_append _ _) with hp | ⟨k, rfl⟩
  · rcases hfront [] (h.mono hp.isInfix) with h | h
    · exact .inl h
    · exact absurd (h.mem hpair.colon) (by simp)
  · have hk : k <+: l.pair := (List.prefix_append_right_inj _).mp hkept
    rcases hfront k (by simpa using h) with h | h
    · exact .inl h
    · have hlength : l.pair.length ≤ k.length := by simpa using h.length_le
      rw [hk.eq_of_length_le hlength]
      exact .inr (List.suffix_append _ _)

end QuotedLogin

namespace ErrorPage

variable {c : Config} {name : Text} {args : Arguments} {server : Backend}

/-- Where the whole address is in front of the cut, it is hidden. -/
theorem shows_of_whole (page : ErrorPage c name args server) (l : QuotedLogin page.body)
    (huser : l.user ≠ []) (hpassword : l.password ≠ []) (hm : ¬ MeetsMask l.pair) {z : Text}
    (hz : Envelope.excerpt page.body = Text.trimStart l.before ++ l.start ++ '@' :: z)
    (h : Shows (redact page.message) l.pair) :
    Shows (page.job.action ++ [':']) l.pair ∨ l.IsElsewhere ∨ Shows z l.pair := by
  have hsplit : page.message = (page.messageStart ++ Text.trimStart l.before) ++
      (l.toWebLogin huser hpassword).text ++ z := by
    rw [page.message_eq, hz]
    simp [QuotedLogin.start, QuotedLogin.toWebLogin, WebLogin.text, WebLogin.pair, QuotedLogin.pair]
  rw [hsplit, redact_login] at h
  rcases shows_of_masked l.isPair _ (shows_of_redact l.isPair hm h) with h | h
  · have hfront : page.messageStart ++ Text.trimStart l.before ++ l.scheme ++ [':'] =
        page.messageStart ++ (Text.trimStart l.before ++ l.scheme ++ [':']) := by simp
    have h : Shows (page.messageStart ++ Text.trimStart l.before ++ l.scheme ++ [':']) l.pair := h
    rw [hfront] at h
    rcases page.shows_of_shows_message l.isPair rfl hpassword h with h | h
    · exact .inl h
    · exact .inr (.inl (l.isElsewhere_of_front h))
  · exact .inr (.inr h)

/-- Where the page is cut, a login is shown only if the cut comes right behind it. -/
theorem shows_of_long (page : ErrorPage c name args server) (l : QuotedLogin page.body)
    (huser : l.user ≠ []) (hpassword : l.password ≠ []) (hm : ¬ MeetsMask l.pair)
    (hlong : Envelope.bodyLimit < Text.byteLength (Text.trim page.body))
    (h : Shows (redact page.message) l.pair) : Shows (page.job.action ++ [':']) l.pair ∨
      l.IsElsewhere ∨ CutBehind l.pair page.body := by
  have hexcerpt : Envelope.excerpt page.body =
      (Text.trim page.body).takeBytes Envelope.bodyLimit ++ "...".toList := by
    rw [Envelope.excerpt, if_neg (Nat.not_le_of_lt hlong)]
  have hbehind : ∀ {x}, x <:+ (Text.trim page.body).takeBytes Envelope.bodyLimit →
      Shows (x ++ "...".toList) l.pair → Shows x l.pair ∨ CutBehind l.pair page.body := fun hx =>
    shows_or_cutBehind l.isPair hlong hx
  -- once the `@` is kept, the address is hidden, and the rest is part of what follows it
  have hwhole : ∀ z, z <+: l.after → (Text.trim page.body).takeBytes Envelope.bodyLimit =
      Text.trimStart l.before ++ l.start ++ '@' :: z → Shows (page.job.action ++ [':']) l.pair ∨
        l.IsElsewhere ∨ CutBehind l.pair page.body := by
    intro z hz hkept
    have hsuffix : z <:+ (Text.trim page.body).takeBytes Envelope.bodyLimit :=
      ⟨Text.trimStart l.before ++ l.start ++ ['@'], by simp [hkept]⟩
    rw [hkept, List.append_assoc, List.cons_append] at hexcerpt
    rcases page.shows_of_whole l huser hpassword hm hexcerpt h with h | h | h
    · exact .inl h
    · exact .inr (.inl h)
    · rcases hbehind hsuffix h with h | h
      · exact .inr (.inl (.inr (h.mono hz.isInfix)))
      · exact .inr (.inr h)
  have htrim : Text.trim page.body =
      Text.trimStart l.before ++ l.start ++ ['@'] ++ Text.trimEnd l.after := by
    rw [l.trim_eq]
    simp
  have hprefix := Text.takeBytes_prefix Envelope.bodyLimit (Text.trim page.body)
  have hstart : Text.trimStart l.before ++ l.start ++ ['@'] <+: Text.trim page.body :=
    ⟨_, htrim.symm⟩
  rcases List.prefix_or_prefix_of_prefix hprefix hstart with hp | ⟨z, hz⟩
  · rcases List.prefix_concat_iff.mp hp with hp | hp
    · exact hwhole [] List.nil_prefix hp
    · rw [page.message_eq, hexcerpt] at h
      rcases page.shows_of_shows_message l.isPair rfl hpassword
        (shows_of_redact l.isPair hm h) with h | h
      · exact .inl h
      rcases hbehind List.suffix_rfl h with h | h
      · rcases l.shows_of_cut hp h with h | h
        · exact .inr (.inl h)
        · exact .inr (.inr ⟨hlong, lower l.pair, [], List.nil_prefix, by simp, h.map foldLetter⟩)
      · exact .inr (.inr h)
  · have hafter : z <+: Text.trimEnd l.after := by
      rw [← hz, htrim] at hprefix
      exact (List.prefix_append_right_inj _).mp hprefix
    exact hwhole z (hafter.trans (Text.trimEnd_prefix l.after)) (by simp [← hz])

/-- **A login is hidden, unless the cut comes right behind it.** -/
theorem shows_of_page (page : ErrorPage c name args server) (l : QuotedLogin page.body)
    (huser : l.user ≠ []) (hpassword : l.password ≠ []) (hm : ¬ MeetsMask l.pair)
    (h : Shows (redact page.message) l.pair) : Shows (page.job.action ++ [':']) l.pair ∨
      l.IsElsewhere ∨ CutBehind l.pair page.body := by
  by_cases hlong : Envelope.bodyLimit < Text.byteLength (Text.trim page.body)
  · exact page.shows_of_long l huser hpassword hm hlong h
  · have hz : Envelope.excerpt page.body =
        Text.trimStart l.before ++ l.start ++ '@' :: Text.trimEnd l.after := by
      rw [Envelope.excerpt, if_pos (Nat.le_of_not_lt hlong), l.trim_eq]
    rcases page.shows_of_whole l huser hpassword hm hz h with h | h | h
    · exact .inl h
    · exact .inr (.inl h)
    · exact .inr (.inl (.inr (h.mono (Text.trimEnd_prefix l.after).isInfix)))

/-- Where the cut comes right behind a login, the wording shows it. -/
theorem shows_message_of_cutBehind (page : ErrorPage c name args server) {w : Text}
    (hcut : CutBehind w page.body) : Shows page.message w := by
  obtain ⟨hlong, x, dots, ⟨d, hd⟩, hw, k, hk⟩ := hcut
  have hexcerpt : Envelope.excerpt page.body =
      (Text.trim page.body).takeBytes Envelope.bodyLimit ++ "...".toList := by
    rw [Envelope.excerpt, if_neg (Nat.not_le_of_lt hlong)]
  have hdots : lower "...".toList = dots ++ d := by
    rw [hd]
    decide
  rw [page.message_eq, hexcerpt]
  unfold Shows
  rw [lower_append, lower_append, hdots, ← hk, hw]
  exact ⟨lower page.messageStart ++ k, d, by simp⟩

/-- **A quiet text without an `@` is left as it is**, with all that it shows. -/
theorem redact_message_eq (page : ErrorPage c name args server) (hquiet : Quiet page.message)
    (hsign : '@' ∉ page.message) : redact page.message = page.message :=
  redact_eq_self hquiet fun _ hl => hsign (hl.mem (by simp [WebLogin.text]))

theorem sign_notMem_messageStart (page : ErrorPage c name args server)
    (haction : '@' ∉ page.job.action) : '@' ∉ page.messageStart := by
  have hwords : '@' ∉ "Error ".toList ∧ '@' ∉ ": ".toList ∧
      '@' ∉ "server returned HTTP ".toList := by
    decide
  unfold messageStart
  simp only [List.mem_append, not_or]
  exact ⟨⟨⟨hwords.1, haction⟩, hwords.2.1⟩, ⟨hwords.2.2, notMem_ofNat rfl _⟩, hwords.2.1⟩

/-- **A login without a user or without a password is shown** in a quiet text that is not cut. -/
theorem infix_of_empty (page : ErrorPage c name args server) (l : QuotedLogin page.body)
    (hempty : l.user = [] ∨ l.password = [])
    (hshort : Text.byteLength (Text.trim page.body) ≤ Envelope.bodyLimit)
    (hquiet : Quiet page.message) (haction : '@' ∉ page.job.action) (hbefore : '@' ∉ l.before)
    (hafter : '@' ∉ l.after) : l.pair <:+: redact page.message := by
  have hmessage : page.message =
      (page.messageStart ++ Text.trimStart l.before ++ l.start) ++ '@' :: Text.trimEnd l.after := by
    rw [page.message_eq, Envelope.excerpt, if_pos hshort, l.trim_eq]
    simp
  have hfront : '@' ∉ page.messageStart ++ Text.trimStart l.before ++ l.start := by
    have hstart := page.sign_notMem_messageStart haction
    have htrim : '@' ∉ Text.trimStart l.before := fun h =>
      hbefore ((Text.trimStart_suffix l.before).mem h)
    simp [hstart, htrim, QuotedLogin.start, l.isWeb.notMem '@' rfl, l.sign_notMem_pair]
  have hback : '@' ∉ Text.trimEnd l.after := fun h => hafter ((Text.trimEnd_prefix l.after).mem h)
  have hnone : ∀ l' : WebLogin, ¬ l'.text <:+: page.message := by
    intro l' hl
    rw [hmessage] at hl
    obtain ⟨k, hk⟩ := l'.suffix_of_infix hfront hback hl
    have heq : (k ++ l'.scheme ++ [':', '/']) ++ '/' :: l'.pair =
        (page.messageStart ++ Text.trimStart l.before ++ l.scheme ++ [':', '/']) ++
          '/' :: l.pair := by
      simpa [QuotedLogin.start] using hk
    have hsame := ((Text.append_cons_inj_right l'.slash_notMem_pair l.slash_notMem_pair).mp heq).2
    have hcolon : ':' ∉ l.user := fun h => absurd (l.inUser _ h) (by decide)
    have hcolon' : ':' ∉ l'.user := fun h => absurd (l'.inUser _ h) (by decide)
    obtain ⟨huser, hpassword⟩ := (Text.append_cons_inj hcolon' hcolon).mp hsame
    rcases hempty with h | h
    · exact l'.user_ne (huser.trans h)
    · exact l'.password_ne (hpassword.trans h)
  rw [redact_eq_self hquiet hnone, hmessage]
  exact ⟨page.messageStart ++ Text.trimStart l.before ++ (l.scheme ++ [':', '/', '/']),
    '@' :: Text.trimEnd l.after, by simp [QuotedLogin.start]⟩

end ErrorPage

/-- **A page shows a login where the cut comes right behind it, or a part of it is empty.**  A call
that is answered by a page that is no envelope has an error text.  It does not show an address's
user and password, neither of them empty, unless the action or the rest of the page does, they run
into the mask, or the cut comes right behind them.  In the last case it is left as it is and shows
them, if it is quiet and has no `@`; and it shows them where one of the two is empty and the page is
not cut. -/
theorem page_login {c : Config} {name : Text} {args : Arguments} {server : Backend}
    (page : ErrorPage c name args server) (l : QuotedLogin page.body) :
    ∃ text, (dispatch c name args).run server =
        ⟨[⟨page.request, some (.replied page.status page.body)⟩], some ⟨text, true⟩⟩ ∧
      (l.user ≠ [] → l.password ≠ [] → Shows text l.pair →
        Shows (page.job.action ++ [':']) l.pair ∨ l.IsElsewhere ∨ MeetsMask l.pair ∨
          CutBehind l.pair page.body) ∧
      (CutBehind l.pair page.body → Quiet page.message → '@' ∉ page.message →
        text = page.message ∧ Shows text l.pair) ∧
      (l.user = [] ∨ l.password = [] →
        Text.byteLength (Text.trim page.body) ≤ Envelope.bodyLimit → Quiet page.message →
        '@' ∉ page.job.action → '@' ∉ l.before → '@' ∉ l.after → l.pair <:+: text) := by
  refine ⟨redact page.message, page.run_eq, fun huser hpassword h => ?_, ?_, ?_⟩
  · by_cases hm : MeetsMask l.pair
    · exact .inr (.inr (.inl hm))
    rcases page.shows_of_page l huser hpassword hm h with h | h | h
    · exact .inl h
    · exact .inr (.inl h)
    · exact .inr (.inr (.inr h))
  · intro hcut hquiet hsign
    have hleft := page.redact_message_eq hquiet hsign
    refine ⟨hleft, ?_⟩
    rw [hleft]
    exact page.shows_message_of_cutBehind hcut
  · exact page.infix_of_empty l

/-- A page of 515 bytes, of which the first 512 end right behind a password. -/
def longPage : Text :=
  List.replicate 491 'x' ++ " http://alice:hunter2@db".toList

/-- The login in the page. -/
def longPageLogin : QuotedLogin longPage where
  before := List.replicate 491 'x' ++ [' ']
  scheme := "http".toList
  user := "alice".toList
  password := "hunter2".toList
  after := "db".toList
  isWeb := by decide
  inUser := List.all_eq_true.mp rfl
  inPassword := List.all_eq_true.mp rfl
  body_eq := by decide +kernel

/-- A call for the alerts that is answered by the page. -/
def longPageCall : ErrorPage { connection := { url := some "http://h".toList } }
    "get_alerts".toList [] fun _ => some (.replied 502 longPage) where
  tool := .getAlerts
  client := ⟨⟨.http, [], none, ['h'], none, [[]], none, none⟩,
    { url := some "http://h".toList }, some Program.agent⟩
  job := .showing "getting alerts".toList "Active Alerts:".toList (.ok Call.alerts)
  call := Call.alerts
  request := ⟨⟨.http, [], none, ['h'], none, ["api".toList, "v1".toList, "alerts".toList], none,
    none⟩, [⟨Header.userAgent, Program.agent⟩], Span.ofSeconds 30⟩
  status := 502
  body := longPage
  readError := ⟨.expectedValue, 1, 1⟩
  found := by decide
  offered := by decide
  connected := by decide +kernel
  asked := rfl
  called := rfl
  built := by decide +kernel
  answered := rfl
  failed := by decide
  unread := rfl

/-- The cut comes right behind the password, and the error text shows it. -/
theorem page_login_of_cut : CutBehind "alice:hunter2".toList longPage ∧
    ∃ text, (dispatch { connection := { url := some "http://h".toList } } "get_alerts".toList []).run
        (fun _ => some (.replied 502 longPage)) =
          ⟨[⟨longPageCall.request, some (.replied 502 longPage)⟩], some ⟨text, true⟩⟩ ∧
      "alice:hunter2".toList <:+: text := by
  have hcut : CutBehind "alice:hunter2".toList longPage :=
    ⟨by decide +kernel, lower "alice:hunter2".toList, [], by decide, by decide, by decide +kernel⟩
  obtain ⟨text, hrun, -, hshown, -⟩ := page_login longPageCall longPageLogin
  have hleft : text = longPageCall.message :=
    (hshown hcut (by decide +kernel) (by decide +kernel)).1
  have hinfix : "alice:hunter2".toList <:+: longPageCall.message := by decide +kernel
  refine ⟨hcut, text, hrun, ?_⟩
  rw [hleft]
  exact hinfix

end MetricsBridge
