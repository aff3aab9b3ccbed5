import TextPager.Proofs.Viewer.InDocument

/-!
# A message lasts until the next action

A rejected jump leaves a message. Most actions leave the message alone: only turning a page and
opening a prompt clear it. That is enough, since a message is only ever present while reading, and
all that can be done while reading is to turn a page, open a prompt or exit.

The actions of a run, each with the viewer it was taken in, are its `deeds`. A resize, or a key
without a meaning, is none. What a message says is decided by the last deed alone.

**Results.**
* `action?_reading`: while reading, no key answers a prompt.
* `run_reading`: there is a message only while reading.
* `Attentive.handle`, `Attentive.run`: an event, and any run of events, leaves a message exactly if
  the last deed is a rejected jump, and then the viewer is reading.
* `run_message_iff`: so does a run from a new viewer, up to an exit.
-/
namespace TextPager

/-- The action answers a prompt. -/
def Action.answers : Action → Bool
  | .chooseFlow _ | .input _ | .erase | .submit | .cancel => true
  | .back | .next | .jump | .flow | .exit => false

theorem answers_readingAction {c : Char} {a : Action} (h : readingAction? c = some a) :
    a.answers = false := by
  unfold readingAction? at h
  split at h <;> cases h <;> rfl

/-- While reading, no key answers a prompt. -/
theorem action?_reading {press : KeyPress} {a : Action} (h : action? .reading press = some a) :
    a.answers = false := by
  obtain ⟨key, control⟩ := press
  unfold action? at h
  split at h
  · cases h
    rfl
  · cases key with
    | char c => exact answers_readingAction h
    | left | right | up | down | pageUp | pageDown => cases h; rfl
    | enter | esc | backspace | other => cases h

namespace Viewer

/-! ## Deeds -/

/-- An action and the viewer it was taken in. -/
structure Deed where
  viewer : Viewer
  action : Action

/-- The deed is a jump that is rejected. -/
def Deed.Rejected (d : Deed) (e : JumpError) : Prop :=
  d.action = .submit ∧ ∃ input, d.viewer.mode = .jumping input ∧
    Bookmark.jumpTo input d.viewer.pager.pageCount = .error e

/-- What an event does; a resize and a key without a meaning are no deeds. -/
def deed? (v : Viewer) : Event → Option Deed
  | .key press => (action? v.mode press).map fun a => ⟨v, a⟩
  | .resize _ _ => none

/-- The deeds of a run, in order. -/
def deeds : Viewer → List Event → List Deed
  | _, [] => []
  | v, e :: es => (v.deed? e).toList ++ deeds (v.handle e) es

/-- What is no deed leaves mode and message alone. -/
theorem handle_of_no_deed {v : Viewer} {e : Event} (h : v.deed? e = none) :
    (v.handle e).mode = v.mode ∧ (v.handle e).message = v.message := by
  cases e with
  | resize rows columns => exact ⟨rfl, rfl⟩
  | key press =>
    have hnone : action? v.mode press = none := Option.map_eq_none_iff.1 h
    simp [handle, hnone]

theorem handle_of_deed {v : Viewer} {e : Event} {d : Deed} (h : v.deed? e = some d) :
    d.viewer = v ∧ v.handle e = v.act d.action ∧
      (d.action.answers = true → v.mode ≠ .reading) := by
  cases e with
  | resize rows columns => cases h
  | key press =>
    obtain ⟨a, ha, rfl⟩ := Option.map_eq_some_iff.1 h
    refine ⟨rfl, by simp only [handle, ha], fun hanswers hm => ?_⟩
    rw [hm] at ha
    exact absurd hanswers (by simp [action?_reading ha])

/-- A prompt is answered only while there is no message, if there is one only while reading. -/
theorem quiet_of_deed {v : Viewer} {e : Event} {d : Deed} (h : v.deed? e = some d)
    (hreading : v.message ≠ none → v.mode = .reading) (ha : d.action.answers = true) :
    v.message = none :=
  Classical.byContradiction fun hmessage => (handle_of_deed h).2.2 ha (hreading hmessage)

/-! ## What an action says -/

theorem editInput_message (edit : Text → Text) (v : Viewer) :
    (v.editInput edit).message = v.message := by
  unfold editInput
  split <;> rfl

theorem rejected_submit_iff {v : Viewer} {input : Text} (hm : v.mode = .jumping input)
    (e : JumpError) :
    Deed.Rejected ⟨v, .submit⟩ e ↔ Bookmark.jumpTo input v.pager.pageCount = .error e := by
  constructor
  · rintro ⟨-, other, hother, hrejected⟩
    cases hm.symm.trans hother
    exact hrejected
  · exact fun hrejected => ⟨rfl, input, hm, hrejected⟩

theorem submit_message_iff {v : Viewer} (h : v.message = none) (e : JumpError) :
    v.submit.message = some e ↔ Deed.Rejected ⟨v, .submit⟩ e := by
  cases hm : v.mode with
  | reading | choosingFlow => simp [submit, hm, h, Deed.Rejected]
  | jumping input =>
    rw [rejected_submit_iff hm]
    cases hj : Bookmark.jumpTo input v.pager.pageCount with
    | ok b => simp [submit_of_ok hm hj, h]
    | error e' => simp [submit_of_error hm hj]

/-- If there is no message at a prompt, an action other than exiting leaves one exactly if it is a
jump that is rejected. -/
theorem act_message_iff {v : Viewer} {a : Action} (hexit : a ≠ .exit)
    (hquiet : a.answers = true → v.message = none) (e : JumpError) :
    (v.act a).message = some e ↔ Deed.Rejected ⟨v, a⟩ e := by
  have hother {w : Viewer} (hw : w.message = none) (ha : a ≠ .submit) :
      w.message = some e ↔ Deed.Rejected ⟨v, a⟩ e :=
    ⟨fun h => by simp [hw] at h, fun h => absurd h.1 ha⟩
  cases a with
  | back | next | jump | flow => exact hother rfl (by simp)
  | exit => exact absurd rfl hexit
  | chooseFlow _ | cancel => exact hother (hquiet rfl) (by simp)
  | input _ | erase => exact hother ((editInput_message _ v).trans (hquiet rfl)) (by simp)
  | submit => exact submit_message_iff (hquiet rfl) e

/-- An action that leaves a message leaves the viewer reading. -/
theorem act_mode {v : Viewer} {a : Action} (hquiet : a.answers = true → v.message = none)
    (hreading : v.message ≠ none → v.mode = .reading) (h : (v.act a).message ≠ none) :
    (v.act a).mode = .reading := by
  cases a with
  | back | next | jump | flow => exact absurd rfl h
  | exit => exact hreading h
  | chooseFlow _ | cancel => rfl
  | input _ | erase => exact absurd ((editInput_message _ v).trans (hquiet rfl)) h
  | submit => exact v.submit_mode

/-- So does an event, if a message is there only while reading. -/
theorem handle_reading {v : Viewer} (hreading : v.message ≠ none → v.mode = .reading) (e : Event)
    (h : (v.handle e).message ≠ none) : (v.handle e).mode = .reading := by
  cases hd : v.deed? e with
  | none =>
    obtain ⟨hmode, hmessage⟩ := handle_of_no_deed hd
    rw [hmode]
    exact hreading (hmessage ▸ h)
  | some d =>
    have hquiet := quiet_of_deed hd hreading
    obtain ⟨rfl, hact, -⟩ := handle_of_deed hd
    rw [hact] at h ⊢
    exact act_mode hquiet hreading h

/-- There is a message only while reading, whatever events went before. -/
theorem run_reading {v : Viewer} (hreading : v.message ≠ none → v.mode = .reading)
    (es : List Event) (h : (v.run es).message ≠ none) : (v.run es).mode = .reading := by
  induction es generalizing v with
  | nil => exact hreading h
  | cons e es ih => exact ih (handle_reading hreading e) h

/-! ## The last deed decides -/

/-- A message is present exactly if the last deed is a jump that was rejected, and only while
reading. -/
structure Attentive (v : Viewer) (last : Option Deed) : Prop where
  reading : v.message ≠ none → v.mode = .reading
  message_iff : ∀ e, v.message = some e ↔ ∃ d, last = some d ∧ d.Rejected e

namespace Attentive

variable {v : Viewer} {last : Option Deed}

theorem ofPager (p : Pager) (frame : Frame) : (Viewer.ofPager p frame).Attentive none :=
  ⟨fun h => absurd rfl h, fun e => by simp [Viewer.ofPager]⟩

theorem handle (h : v.Attentive last) {e : Event} (hexit : ∀ d ∈ v.deed? e, d.action ≠ .exit) :
    (v.handle e).Attentive ((v.deed? e).or last) := by
  refine ⟨handle_reading h.reading e, ?_⟩
  cases hd : v.deed? e with
  | none =>
    rw [(handle_of_no_deed hd).2]
    exact h.message_iff
  | some d =>
    have hquiet := quiet_of_deed hd h.reading
    obtain ⟨rfl, hact, -⟩ := handle_of_deed hd
    intro e
    rw [hact, act_message_iff (hexit d hd) hquiet e]
    simp

theorem run (h : v.Attentive last) {es : List Event}
    (hexit : ∀ d ∈ v.deeds es, d.action ≠ .exit) :
    (v.run es).Attentive ((v.deeds es).getLast?.or last) := by
  induction es generalizing v last with
  | nil => exact h
  | cons e es ih =>
    have hlast : (v.deeds (e :: es)).getLast?.or last =
        ((v.handle e).deeds es).getLast?.or ((v.deed? e).or last) := by
      rw [deeds, List.getLast?_append, Option.or_assoc]
      cases v.deed? e <;> rfl
    rw [hlast, run_cons]
    exact ih (h.handle fun d hd => hexit d (List.mem_append_left _ (Option.mem_toList.2 hd)))
      fun d hd => hexit d (List.mem_append_right _ hd)

end Attentive

/-- **Feedback lasts exactly until the next action.** Let a new viewer have gone through any keys
and resizes without an exit. A message is present exactly if the last key that asked for anything
submitted a jump that was rejected, and it gives the reason of that rejection; a resize and a key
that asks for nothing leave it alone; and while there is a message the viewer is reading. -/
theorem run_message_iff (text title : Text) (height width : Nat) (mode : WrapMode) (frame : Frame)
    (es : List Event) :
    let start := ofPager (.ofText text title height width mode) frame
    let v := start.run es
    (∀ d ∈ start.deeds es, d.action ≠ .exit) →
      (∀ e, v.message = some e ↔ ∃ d, (start.deeds es).getLast? = some d ∧ d.Rejected e) ∧
        (∀ rows columns, (v.handle (.resize rows columns)).message = v.message) ∧
        (∀ press, action? v.mode press = none → (v.handle (.key press)).message = v.message) ∧
        (v.message ≠ none → v.mode = .reading) := by
  intro start v hexit
  have h : v.Attentive (start.deeds es).getLast? := by
    simpa using (Attentive.ofPager (.ofText text title height width mode) frame).run hexit
  refine ⟨h.message_iff, fun rows columns => ?_, fun press hnone => ?_, h.reading⟩
  · exact (handle_of_no_deed (e := .resize rows columns) rfl).2
  · exact (handle_of_no_deed (e := .key press) (Option.map_eq_none_iff.2 hnone)).2

/-- A jump that is rejected, then a key without a meaning and a resize. -/
def toNoPage : List Event :=
  [.resize 5 12, .key ⟨.char 'n', false⟩, .key ⟨.char 'j', false⟩, .key ⟨.char '9', false⟩,
    .key ⟨.enter, false⟩, .key ⟨.char 'z', false⟩, .resize 24 80]

/-- The rejection is still on screen after a key without a meaning and a resize. -/
theorem run_message_iff_no_page :
    let start := ofPager (.ofText "a\nb\nc".toList "abc".toList 1 9 .noWrap) FrameKind.light.frame
    (∀ d ∈ start.deeds toNoPage, d.action ≠ .exit) ∧
      (start.run toNoPage).message = some (.outOfRange 9 3) ∧
      (start.run toNoPage).mode = .reading := by
  intro start
  have hactions : (start.deeds toNoPage).map Deed.action =
      [.next, .jump, .input '9', .submit] := by decide +kernel
  have hexit : ∀ d ∈ start.deeds toNoPage, d.action ≠ .exit := fun d hd hd' => by
    have hmem := List.mem_map_of_mem (f := Deed.action) hd
    rw [hactions, hd'] at hmem
    exact absurd hmem (by decide)
  obtain ⟨hmessage, -, -, hreading⟩ := run_message_iff "a\nb\nc".toList "abc".toList 1 9 .noWrap
    FrameKind.light.frame toNoPage hexit
  have hlast : (start.deeds toNoPage).getLast?.map (fun d =>
      (d.action, d.viewer.mode, d.viewer.pager.pageCount)) =
      some (.submit, .jumping ['9'], 3) := by decide +kernel
  obtain ⟨d, hd, hsays⟩ := Option.map_eq_some_iff.1 hlast
  simp only [Prod.mk.injEq] at hsays
  obtain ⟨haction, hmode, hcount⟩ := hsays
  have hsome : (start.run toNoPage).message = some (.outOfRange 9 3) :=
    (hmessage _).2 ⟨d, hd, haction, ['9'], hmode, by rw [hcount]; rfl⟩
  exact ⟨hexit, hsome, hreading (by rw [hsome]; simp)⟩

end Viewer

end TextPager
