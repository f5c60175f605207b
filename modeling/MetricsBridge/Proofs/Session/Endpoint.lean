import Mathlib.Data.List.DropRight
import Mathlib.Tactic.SplitIfs
import MetricsBridge.Proofs.Text.Trim
import MetricsBridge.Session.EventStream

/-!
# Paths in normal form

The path of an endpoint starts with a slash, and only the root ends in one.  The blanks around a
path are taken away before the slashes at its end, so that a blank in front of those slashes comes
to stand at the end.  Such a path is not in normal form yet, and every other one is
(`endpoint_is_normal_iff`).
-/
namespace MetricsBridge

namespace Endpoint

/-- A path without the blanks around it, and then without the slashes at its end. -/
def stripped (t : Text) : Text :=
  (Text.trim t).rdropWhile (· == '/')

/-- But for the blanks around it, the text ends in a blank with nothing but slashes behind it. -/
def HidesBlank (t : Text) : Prop :=
  ∃ path blank slashes, Text.trim t = path ++ blank :: slashes ∧ isBlank blank = true ∧
    ∀ c ∈ slashes, c = '/'

variable {t path slashes : Text}

theorem normalize_eq (t : Text) : normalize t =
    if (stripped t).head? = some '/' then stripped t else '/' :: stripped t := by
  have hnormalize : normalize t = match stripped t with
    | [] => ['/']
    | '/' :: rest => '/' :: rest
    | path => '/' :: path := rfl
  rw [hnormalize]
  split
  · next hnil =>
    rw [hnil]
    rfl
  · next rest hcons =>
    rw [hcons]
    rfl
  · next hne =>
    rw [if_neg]
    intro hhead
    obtain ⟨rest, hcons⟩ := List.head?_eq_some_iff.mp hhead
    exact hne rest hcons

/-! ### Slashes -/

/-- **A path in normal form starts with a slash.** -/
theorem head?_normalize (t : Text) : (normalize t).head? = some '/' := by
  rw [normalize_eq]
  split_ifs with hhead
  · exact hhead
  · rfl

/-- But for the root, a path in normal form ends as the stripped one does. -/
theorem getLast?_normalize (t : Text) : stripped t = [] ∧ normalize t = ['/'] ∨
    (normalize t).getLast? = (stripped t).getLast? := by
  rw [normalize_eq]
  by_cases hnil : stripped t = []
  · rw [hnil]
    exact .inl ⟨rfl, rfl⟩
  · right
    split_ifs
    · rfl
    · obtain ⟨c, rest, hcons⟩ := List.exists_cons_of_ne_nil hnil
      rw [hcons, List.getLast?_cons_cons]

/-- What is stripped of a text without blanks around it are slashes. -/
theorem trim_eq_stripped_append (t : Text) :
    ∃ slashes, Text.trim t = stripped t ++ slashes ∧ ∀ c ∈ slashes, c = '/' := by
  refine ⟨(Text.trim t).rtakeWhile (· == '/'), ?_, ?_⟩
  · exact List.rdropWhile_append_rtakeWhile.symm
  · intro c hc
    have hslash : (c == '/') = true := @List.mem_rtakeWhile_imp _ (· == '/') _ c hc
    exact beq_iff_eq.mp hslash

/-- Nothing but the slashes at the end is stripped. -/
theorem stripped_of_trim_eq (ht : Text.trim t = path ++ slashes)
    (hpath : path.getLast? ≠ some '/') (hslashes : ∀ c ∈ slashes, c = '/') : stripped t = path := by
  have hreverse : (path ++ slashes).reverse = slashes.reverse ++ path.reverse := by simp
  have hrun : ∀ c ∈ slashes.reverse, (c == '/') = true :=
    fun c hc => beq_iff_eq.mpr (hslashes c (List.mem_reverse.mp hc))
  have hend : ∀ c ∈ path.reverse.head?, (c == '/') = false := by
    intro c hc
    rw [List.head?_reverse] at hc
    exact beq_false_of_ne fun heq => hpath (heq ▸ hc)
  rw [stripped, ht, List.rdropWhile, hreverse, Text.dropWhile_run hrun hend, List.reverse_reverse]

theorem getLast?_stripped_ne (t : Text) : (stripped t).getLast? ≠ some '/' := by
  intro hlast
  rw [stripped, List.rdropWhile, List.getLast?_reverse] at hlast
  have hslash := Text.head?_dropWhile (Text.trim t).reverse '/' hlast
  exact absurd hslash (by decide)

/-- **Only the root ends in a slash.** -/
theorem normalize_eq_root_or (t : Text) :
    normalize t = ['/'] ∨ (normalize t).getLast? ≠ some '/' := by
  rcases getLast?_normalize t with ⟨-, h⟩ | h
  · exact .inl h
  · rw [h]
    exact .inr (getLast?_stripped_ne t)

/-! ### Blanks -/

/-- **A stripped path ends in a blank** exactly if one stands in front of the slashes. -/
theorem hidesBlank_iff : HidesBlank t ↔ ∃ c, (stripped t).getLast? = some c ∧ isBlank c = true := by
  constructor
  · rintro ⟨path, blank, slashes, ht, hblank, hslashes⟩
    have hlast : (path ++ [blank]).getLast? = some blank := List.getLast?_concat
    have hne : (path ++ [blank]).getLast? ≠ some '/' := by
      rw [hlast]
      rintro ⟨⟩
      exact absurd hblank (by decide)
    rw [List.append_cons] at ht
    rw [stripped_of_trim_eq ht hne hslashes]
    exact ⟨blank, hlast, hblank⟩
  · rintro ⟨c, hc, hblank⟩
    obtain ⟨path, hpath⟩ := List.getLast?_eq_some_iff.mp hc
    obtain ⟨slashes, ht, hslashes⟩ := trim_eq_stripped_append t
    rw [hpath, ← List.append_cons] at ht
    exact ⟨path, c, slashes, ht, hblank, hslashes⟩

/-- **No blank stands at either end** of a path in normal form, unless one has been hidden. -/
theorem isTrimmed_normalize_iff : Text.IsTrimmed (normalize t) ↔ ¬ HidesBlank t := by
  rw [hidesBlank_iff]
  rcases getLast?_normalize t with ⟨hnil, hroot⟩ | hlast
  · rw [hroot, hnil]
    exact iff_of_true (Text.isTrimmed_of_forall (by simp [isBlank])) (by simp)
  · constructor
    · rintro htrim ⟨c, hc, hblank⟩
      rw [htrim.stop c (hlast.trans hc)] at hblank
      exact Bool.false_ne_true hblank
    · intro hnone
      constructor
      · rw [head?_normalize]
        rintro c ⟨⟩
        rfl
      · intro c hc
        rw [hlast] at hc
        exact Bool.eq_false_iff.mpr fun hblank => hnone ⟨c, hc, hblank⟩

/-! ### Once more -/

/-- What starts with a slash and has neither a blank nor a slash at its end is left alone. -/
theorem normalize_eq_self (hstart : path.head? = some '/')
    (hend : path = ['/'] ∨ path.getLast? ≠ some '/') (htrim : Text.IsTrimmed path) :
    normalize path = path := by
  rcases hend with rfl | hend
  · rfl
  · have hpath : Text.trim path = path ++ [] := by rw [htrim.trim_eq, List.append_nil]
    rw [normalize_eq, stripped_of_trim_eq hpath hend (by simp), if_pos hstart]

/-- Where there is a slash at the start already, nothing is added. -/
theorem length_normalize_le (hstart : path.head? = some '/') :
    (normalize path).length ≤ (Text.trim path).length := by
  obtain ⟨rest, rfl⟩ := List.head?_eq_some_iff.mp hstart
  have htrim : Text.trim ('/' :: rest) = '/' :: Text.trimEnd rest :=
    Text.trimEnd_append_cons (a := []) rfl
  have hprefix : stripped ('/' :: rest) <+: Text.trim ('/' :: rest) := List.rdropWhile_prefix _ _
  rw [normalize_eq]
  split_ifs with hhead
  · exact hprefix.length_le
  · -- The stripped path is a start of one that starts with a slash.
    rw [htrim, List.prefix_cons_iff] at hprefix
    rcases hprefix with hnil | ⟨more, hmore, -⟩
    · rw [hnil, htrim, List.length_singleton, List.length_cons]
      exact Nat.le_add_left _ _
    · exact absurd (by rw [hmore]; rfl) hhead

/-- What starts with a slash and is left alone has no blanks around it. -/
theorem isTrimmed_of_normalize_eq_self (hstart : path.head? = some '/')
    (h : normalize path = path) : Text.IsTrimmed path := by
  have hle : path.length ≤ (Text.trim path).length := by
    have hlength := length_normalize_le hstart
    rwa [h] at hlength
  have hend := Text.trimEnd_prefix (Text.trimStart path)
  have hsuffix := Text.trimStart_suffix path
  have hall : Text.trimStart path = path :=
    hsuffix.eq_of_length_le (hle.trans hend.length_le)
  have htrim : Text.trim path = path := by
    rw [hall] at hend
    rw [Text.trim, hall]
    exact hend.eq_of_length_le (by rwa [Text.trim, hall] at hle)
  rw [← htrim]
  exact Text.isTrimmed_trim path

theorem normalize_normalize_iff : normalize (normalize t) = normalize t ↔ ¬ HidesBlank t := by
  rw [← isTrimmed_normalize_iff]
  constructor
  · exact isTrimmed_of_normalize_eq_self (head?_normalize t)
  · exact normalize_eq_self (head?_normalize t) (normalize_eq_root_or t)

end Endpoint

/-! ### Servers -/

namespace StreamServer

variable {server : StreamServer} {r : Inbound}

/-- The first event of a stream tells where the server takes messages. -/
theorem hub_of_openStream (h : server.action r = .openStream) (fresh : Text) :
    (server.handle fresh r).2.hub =
      server.hub ++ [⟨fresh, [.endpoint (Hub.target server.messagePath fresh)], [], {}⟩] := by
  rw [handle, h]
  rfl

/-- Messages are taken at one path. -/
theorem path_of_post {session : Text} {m : Message} (h : server.action r = .post session m) :
    r.path = server.messagePath := by
  unfold action at h
  split_ifs at h with hopen hhead hpost
  exact hpost.1

end StreamServer

/-- **When the path of an endpoint is in normal form.**  It starts with a slash, and only the root
ends in one.  No blank stands at its ends, and bringing it into normal form once more leaves it
alone, exactly if the text does not end, but for the blanks around it, in a blank with nothing but
slashes behind it.  Whatever the text, a server takes messages at the path that it tells its
clients. -/
theorem endpoint_is_normal_iff (t : Text) :
    (Endpoint.normalize t).head? = some '/' ∧
    (Endpoint.normalize t = ['/'] ∨ (Endpoint.normalize t).getLast? ≠ some '/') ∧
    (Text.IsTrimmed (Endpoint.normalize t) ↔ ¬ Endpoint.HidesBlank t) ∧
    (Endpoint.normalize (Endpoint.normalize t) = Endpoint.normalize t ↔ ¬ Endpoint.HidesBlank t) ∧
    ∀ config streamPath r,
      (∀ fresh, (StreamServer.start config streamPath t).action r = .openStream →
        ((StreamServer.start config streamPath t).handle fresh r).2.hub =
          [⟨fresh, [.endpoint (Endpoint.normalize t ++ "?sessionId=".toList ++ fresh)], [], {}⟩]) ∧
      ∀ session m, (StreamServer.start config streamPath t).action r = .post session m →
        r.path = Endpoint.normalize t := by
  refine ⟨Endpoint.head?_normalize t, Endpoint.normalize_eq_root_or t,
    Endpoint.isTrimmed_normalize_iff, Endpoint.normalize_normalize_iff, ?_⟩
  intro config streamPath r
  constructor
  · intro fresh h
    rw [StreamServer.hub_of_openStream h]
    rfl
  · intro session m h
    exact StreamServer.path_of_post h

/-- A blank in front of the last slash stays, and goes if the path is brought into normal form once
more.  Clients are told the path with the blank. -/
theorem endpoint_is_normal_iff_of_blank :
    Endpoint.normalize " /mcp / ".toList = "/mcp ".toList ∧
      ¬ Text.IsTrimmed (Endpoint.normalize " /mcp / ".toList) ∧
      Endpoint.normalize (Endpoint.normalize " /mcp / ".toList) ≠
        Endpoint.normalize " /mcp / ".toList ∧
      ((StreamServer.start {} "/sse".toList " /mcp / ".toList).handle "a".toList
        ⟨"GET".toList, "/sse".toList, [], [], []⟩).2.hub =
          [⟨"a".toList, [.endpoint "/mcp ?sessionId=a".toList], [], {}⟩] := by
  have hhides : Endpoint.HidesBlank " /mcp / ".toList :=
    ⟨"/mcp".toList, ' ', ['/'], by decide, by decide, by simp⟩
  have hopen : (StreamServer.start {} "/sse".toList " /mcp / ".toList).action
      ⟨"GET".toList, "/sse".toList, [], [], []⟩ = .openStream := by
    rw [StreamServer.action, if_pos (by decide)]
  obtain ⟨-, -, htrimmed, hagain, hservers⟩ := endpoint_is_normal_iff " /mcp / ".toList
  exact ⟨by decide, fun h => htrimmed.mp h hhides, fun h => hagain.mp h hhides,
    (hservers {} _ _).1 _ hopen⟩

end MetricsBridge
