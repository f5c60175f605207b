import MetricsBridge.Json.Decoder
import MetricsBridge.Proofs.Json.Skip

/-!
# Decoders and passing over

A decoder keeps pace with passing over: what it reads, whatever of it is asked for, can be passed
over, and ends where passing over it ends (`KeepsPace.skipValue_iff`).  All decoders do, so that a
record can be read from an object by the places of its members.
-/
namespace MetricsBridge.Json.Decoder

open Cursor

variable {α σ : Type} {outer : List Container} {stop : Cursor}

/-- What is read is passed over inside other containers exactly if what is left of these is passed
over behind it. -/
def KeepsPace (d : Decoder α) : Prop :=
  ∀ ⦃steps depth : Nat⦄ ⦃cur : Cursor⦄ ⦃a : α⦄ ⦃next : Cursor⦄, d steps depth cur = .ok (a, next) →
    ∀ (outer : List Container) (stop : Cursor), Passes outer cur stop ↔ Resumes true outer next stop

/-- **What can be read can be passed over**, up to the same place. -/
theorem KeepsPace.skipValue_iff {d : Decoder α} (hd : d.KeepsPace) {steps depth : Nat}
    {cur next : Cursor} {a : α} (h : d steps depth cur = .ok (a, next)) {stop : Cursor} :
    (∃ steps, cur.skipValue steps = .ok stop) ↔ stop = next :=
  (hd h [] stop).trans resumes_nil

/-- Reading and passing over end at the same place. -/
theorem KeepsPace.skipValue {d : Decoder α} (hd : d.KeepsPace) {steps steps' depth : Nat}
    {cur next stop : Cursor} {a : α} (h : d steps depth cur = .ok (a, next))
    (hskip : cur.skipValue steps' = .ok stop) : stop = next :=
  (hd.skipValue_iff h).mp ⟨steps', hskip⟩

theorem keepsPace_json : json.KeepsPace := by
  intro steps depth cur j next h outer stop
  exact (passes_of_reading steps).1 depth cur j next h outer stop

theorem wrongType_ne_ok {expected : Text} {steps : Nat} {cur : Cursor} {x : α × Cursor} :
    wrongType expected steps cur ≠ .ok x := by
  intro h
  simp only [wrongType, bind_eq_ok] at h
  obtain ⟨_, -, h⟩ := h
  cases h

theorem keepsPace_text : text.KeepsPace := by
  intro steps depth cur t next h outer stop
  rw [text] at h
  split at h
  · cases h
  · next rest hcur => exact passes_of_text hcur h
  · exact absurd h wrongType_ne_ok

theorem KeepsPace.optional {d : Decoder α} (hd : d.KeepsPace) : (optional d).KeepsPace := by
  intro steps depth cur a next h outer stop
  rw [Decoder.optional] at h
  split at h
  · next rest hcur =>
    simp only [bind_eq_ok, pure_eq_ok] at h
    obtain ⟨after, hword, heq⟩ := h
    cases heq
    exact passes_of_null hcur hword
  · simp only [bind_eq_ok, pure_eq_ok] at h
    obtain ⟨⟨a, after⟩, hread, heq⟩ := h
    cases heq
    rw [← passes_skipSpaces]
    exact hd hread outer stop

/-- What is made of a value does not change where it ends. -/
theorem KeepsPace.of_eq_ok {β : Type} {d : Decoder α} (hd : d.KeepsPace) {d' : Decoder β}
    (h : ∀ steps depth cur b next, d' steps depth cur = .ok (b, next) →
      ∃ a, d steps depth cur = .ok (a, next)) : d'.KeepsPace := by
  intro steps depth cur b next hread
  obtain ⟨a, hread'⟩ := h _ _ _ _ _ hread
  exact hd hread'

theorem resumes_of_listItems {d : Decoder α} (hd : d.KeepsPace) {steps : Nat} :
    ∀ {depth : Nat} {isFirst : Bool} {read : List α} {cur next : Cursor} {as : List α},
    listItems d steps depth isFirst read cur = .ok (as, next) →
    (Resumes (!isFirst) (.array :: outer) cur stop ↔ Resumes true outer next stop) := by
  induction steps with
  | zero => intro depth isFirst read cur next as h; cases h
  | succ steps ih =>
    intro depth isFirst read cur next as h
    rw [listItems] at h
    split at h
    · cases h
    · next after hnext =>
      cases h
      exact resumes_of_noItem hnext
    · next after hnext =>
      split at h
      · cases h
      · next a behind hread =>
        rw [resumes_of_item hnext, hd hread]
        exact ih h

theorem KeepsPace.list {d : Decoder α} (hd : d.KeepsPace) : (list d).KeepsPace := by
  intro steps depth cur as next h outer stop
  rw [Decoder.list] at h
  split at h
  · cases h
  · next rest hcur =>
    split at h
    · cases h
    · exact (passes_of_bracket hcur).trans (resumes_of_listItems hd h)
  · exact absurd h wrongType_ne_ok

theorem resumes_of_textFields {steps : Nat} : ∀ {isFirst : Bool} {read fields : List (Text × Text)}
    {cur next : Cursor}, textFields steps isFirst read cur = .ok (fields, next) →
    (Resumes (!isFirst) (.object :: outer) cur stop ↔ Resumes true outer next stop) := by
  induction steps with
  | zero => intro isFirst read fields cur next h; cases h
  | succ steps ih =>
    intro isFirst read fields cur next h
    rw [textFields] at h
    split at h
    · cases h
    · next after hnext =>
      cases h
      exact resumes_of_noName hnext
    · next after hnext =>
      split at h
      · cases h
      · next field behind hfield =>
        simp only [bind_eq_ok, pure_eq_ok] at hfield
        obtain ⟨⟨name, _⟩, hname, _, hcolon, ⟨v, _⟩, hvalue, heq⟩ := hfield
        cases heq
        rw [resumes_of_name hnext hname hcolon, keepsPace_text hvalue]
        exact ih h

theorem keepsPace_texts : texts.KeepsPace := by
  intro steps depth cur fields next h outer stop
  rw [texts] at h
  split at h
  · cases h
  · next rest hcur =>
    split at h
    · cases h
    · exact (passes_of_brace hcur).trans (resumes_of_textFields h)
  · exact absurd h wrongType_ne_ok

/-! ### Records -/

section Records

variable {entries : List (Entry σ)}

theorem resumes_of_recordFields (hentries : ∀ e ∈ entries, e.read.KeepsPace) {steps : Nat} :
    ∀ {depth : Nat} {isFirst : Bool} {s s' : σ} {cur next : Cursor},
    recordFields entries steps depth isFirst s cur = .ok (s', next) →
    (Resumes (!isFirst) (.object :: outer) cur stop ↔ Resumes true outer next stop) := by
  induction steps with
  | zero => intro depth isFirst s s' cur next h; cases h
  | succ steps ih =>
    intro depth isFirst s s' cur next h
    rw [recordFields] at h
    split at h
    · cases h
    · next after hnext =>
      dsimp only at h
      split at h
      · cases h
      · cases h
        exact resumes_of_noName hnext
    · next after hnext =>
      split at h
      · cases h
      · next change behind hfield =>
        refine Iff.trans ?_ (ih h)
        simp only [bind_eq_ok] at hfield
        obtain ⟨⟨name, afterName⟩, hname, hfield⟩ := hfield
        dsimp only at hfield
        split at hfield
        · simp only [bind_eq_ok, pure_eq_ok] at hfield
          obtain ⟨place, hcolon, after', hskip, heq⟩ := hfield
          cases heq
          rw [resumes_of_name hnext hname hcolon]
          exact passes_of_skipInside hskip
        · next e he =>
          split at hfield
          · cases hfield
          · simp only [bind_eq_ok] at hfield
            obtain ⟨place, hcolon, hread⟩ := hfield
            rw [resumes_of_name hnext hname hcolon]
            exact hentries e (List.mem_of_find?_eq_some he) hread _ _

theorem closeArray_eq_ok {cur next : Cursor} (h : cur.closeArray = .ok next) :
    ∃ rest, cur.skipSpaces.rest = ']' :: rest ∧ next = cur.skipSpaces.ahead 1 rest := by
  unfold closeArray at h
  dsimp only at h
  split at h
  · cases h
  · next c rest hcur =>
    split at h
    · next hc =>
      cases h
      exact ⟨rest, hc ▸ hcur, rfl⟩
    · split at h
      · split at h <;> cases h
      · cases h

theorem recordAbsent_eq_ok {expected : Text} {cur next : Cursor} {done : Nat} {s s' : σ}
    (h : recordItems.recordAbsent expected cur entries done s = .ok (s', next)) :
    s' = s ∧ next = cur.skipOne := by
  induction entries generalizing done with
  | nil =>
    cases h
    exact ⟨rfl, rfl⟩
  | cons e entries ih =>
    rw [recordItems.recordAbsent] at h
    split at h
    · cases h
    · exact ih h

theorem resumes_of_recordItems (hentries : ∀ e ∈ entries, e.read.KeepsPace) {expected : Text}
    {steps depth done : Nat} {s s' : σ} {cur next : Cursor}
    (h : recordItems expected steps depth entries done s cur = .ok (s', next)) :
    Resumes (!(done == 0)) (.array :: outer) cur stop ↔ Resumes true outer next stop := by
  induction entries generalizing done s cur with
  | nil =>
    simp only [recordItems, bind_eq_ok, pure_eq_ok] at h
    obtain ⟨after, hclose, heq⟩ := h
    cases heq
    obtain ⟨rest, hcur, rfl⟩ := closeArray_eq_ok hclose
    exact resumes_of_close hcur
  | cons e entries ih =>
    simp only [recordItems, bind_eq_ok] at h
    obtain ⟨⟨more, after⟩, hnext, h⟩ := h
    dsimp only at h
    split at h
    · next hmore =>
      subst hmore
      simp only [bind_eq_ok] at h
      obtain ⟨⟨change, behind⟩, hread, h⟩ := h
      rw [resumes_of_item hnext, hentries e List.mem_cons_self hread]
      exact ih (fun e he => hentries e (List.mem_cons_of_mem _ he)) h
    · next hmore =>
      rw [Bool.not_eq_true] at hmore
      subst hmore
      split at h
      · cases h
      · obtain ⟨-, rfl⟩ := recordAbsent_eq_ok h
        exact resumes_of_noItem hnext

theorem keepsPace_record (name : String) (start : σ) (hentries : ∀ e ∈ entries, e.read.KeepsPace) :
    (record name entries start).KeepsPace := by
  intro steps depth cur s next h outer stop
  rw [record] at h
  split at h
  · cases h
  · next rest hcur =>
    split at h
    · cases h
    · exact (passes_of_brace hcur).trans (resumes_of_recordFields hentries h)
  · next rest hcur =>
    split at h
    · cases h
    · exact (passes_of_bracket hcur).trans (resumes_of_recordItems hentries h)
  · exact absurd h wrongType_ne_ok

theorem keepsPace_entry {β : Type} {name : String} {isRequired : Bool} {get : σ → Option β}
    {set : σ → β → σ} {d : Decoder β} (hd : d.KeepsPace) :
    (entry name isRequired get set d).read.KeepsPace := by
  refine hd.of_eq_ok fun steps depth cur change next h => ?_
  simp only [entry, bind_eq_ok, pure_eq_ok] at h
  obtain ⟨⟨b, after⟩, hread, heq⟩ := h
  cases heq
  exact ⟨b, hread⟩

end Records

end MetricsBridge.Json.Decoder
