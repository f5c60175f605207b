import MetricsBridge.Backend.Envelope
import MetricsBridge.Proofs.Text.Boundary

/-!
# What is shown of a body that is no envelope

The error of a call that failed over HTTP shows the body that came with it, if this is no envelope.
The blanks around the body are left out, and of what remains no more than 512 bytes are shown, up to
the end of a character, with three dots behind them (`isExcerpt_excerpt`).
-/
namespace MetricsBridge

namespace Envelope

/-- What is kept of a text: all of it if it has at most 512 bytes.  Of a longer one the longest
start of whole characters that fits, behind which the search for a boundary stops that goes back
from byte 512; it has 509 bytes at least, and three dots follow it. -/
structure IsExcerpt (t kept : Text) : Prop where
  short : Text.byteLength t ≤ 512 → kept = t
  long : 512 < Text.byteLength t → ∃ start, kept = start ++ "...".toList ∧
    Text.IsLongestStart 512 t start ∧
    Utf8.lastBoundary? (Utf8.encode t) 512 = some (Text.byteLength start) ∧
    (Utf8.encode t).take (Text.byteLength start) = Utf8.encode start ∧
    509 ≤ Text.byteLength start

/-- **An excerpt is one of the body without the blanks around it.** -/
theorem isExcerpt_excerpt (body : Text) : IsExcerpt (Text.trim body) (excerpt body) where
  short := by
    intro hshort
    exact if_pos hshort
  long := by
    intro hlong
    have hstart := Text.isLongestStart_takeBytes 512 (Text.trim body)
    have hroom := Text.lt_byteLength_takeBytes hlong.le
    refine ⟨(Text.trim body).takeBytes 512, ?_, hstart, ?_, ?_, ?_⟩
    · exact if_neg (Nat.not_le_of_lt hlong)
    · exact Utf8.lastBoundary?_encode 512 (Text.trim body)
    · exact Utf8.take_encode hstart.isStart
    · omega

variable {α : Type} {shape : Json.Decoder α} {status : Nat} {body : Text} {e : Json.ReadError}

/-- A failed call shows its body if this cannot be read. -/
theorem interpret_of_unreadable (hstatus : ¬ (200 ≤ status ∧ status < 300))
    (hread : read shape body = .error e) :
    interpret shape status body = .error (.status status (excerpt body)) := by
  rw [interpret, hread]
  exact if_neg hstatus

end Envelope

/-- **What is shown of a body that is no envelope.**  A call whose answer has a status of failure
and a body that cannot be read, whatever the shape of the data, fails with this status and an
excerpt of the body without the blanks at its two ends. -/
theorem unreadable_body_is_shown {α : Type} {shape : Json.Decoder α} {status : Nat} {body : Text}
    {e : Json.ReadError} (hstatus : ¬ (200 ≤ status ∧ status < 300))
    (hread : Envelope.read shape body = .error e) :
    ∃ kept, Envelope.interpret shape status body = .error (.status status kept) ∧
      Envelope.IsExcerpt (Text.trim body) kept ∧ Text.IsTrimmed (Text.trim body) ∧
      ∃ front back, body = front ++ Text.trim body ++ back ∧
        (∀ c ∈ front, isBlank c = true) ∧ ∀ c ∈ back, isBlank c = true := by
  refine ⟨Envelope.excerpt body, ?_, ?_, ?_, ?_⟩
  · exact Envelope.interpret_of_unreadable hstatus hread
  · exact Envelope.isExcerpt_excerpt body
  · exact Text.isTrimmed_trim body
  · exact Text.exists_trim_eq body

/-- A page between blanks, in which a character of two bytes goes across the limit. -/
def accentedPage : Text :=
  '\n' :: List.replicate 511 'x' ++ "éy \t".toList

/-- The page is shown up to the character that goes across the limit. -/
theorem unreadable_body_is_shown_of_accent :
    Envelope.interpret Json.Decoder.text 502 accentedPage =
      .error (.status 502 (List.replicate 511 'x' ++ "...".toList)) := by
  have hstatus : ¬ (200 ≤ 502 ∧ 502 < 300) := by omega
  obtain ⟨e, hread⟩ : ∃ e, Envelope.read Json.Decoder.text accentedPage = .error e := ⟨_, rfl⟩
  obtain ⟨kept, hfails, hkept, -⟩ := unreadable_body_is_shown hstatus hread
  have hlong : 512 < Text.byteLength (Text.trim accentedPage) := by decide +kernel
  obtain ⟨start, rfl, hstart, -⟩ := hkept.long hlong
  have htake : (Text.trim accentedPage).takeBytes 512 = List.replicate 511 'x' := by decide +kernel
  rw [hfails, hstart.eq_takeBytes, htake]

end MetricsBridge
