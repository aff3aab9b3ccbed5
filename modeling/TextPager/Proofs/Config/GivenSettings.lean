import TextPager.Config.File

/-!
# What a configuration file gives

A configuration file is read into a configuration, setting by setting, so a configuration that was
read does not show which of its settings the file gave and which were there before. But the reading
never looks at the configuration it reads into: what a file gives is the same over any configuration,
and whatever it does not give stays as it was.

**Results.**
* `Given.overlay_overlay`: of two files in turn, the later one goes before the earlier.
* `exists_ofFile`: a file that can be read over one configuration gives the same settings over any.
* `Given.OfFile.unique`: it gives no others.
* `Given.OfFile.of_read`: two readings say what it gives.
-/
namespace TextPager

open Json

/-- Settings of a configuration file, those that it gives. A setting that may be null can be given
as null. -/
structure Given where
  version : Option Nat := none
  wrapMode : Option WrapMode := none
  frame : Option FrameKind := none
  customFrame : Option (Option Text) := none
  pageHeight : Option (Option Nat) := none
  pageWidth : Option (Option Nat) := none
  deriving DecidableEq, Repr

namespace Given

/-- The settings over a configuration: each as given, or as it was. -/
def overlay (g : Given) (c : Config) : Config :=
  { version := g.version.getD c.version
    wrapMode := g.wrapMode.getD c.wrapMode
    frame := g.frame.getD c.frame
    customFrame := g.customFrame.getD c.customFrame
    pageHeight := g.pageHeight.getD c.pageHeight
    pageWidth := g.pageWidth.getD c.pageWidth }

/-- Settings that are given after others. -/
def after (g h : Given) : Given :=
  { version := g.version.or h.version
    wrapMode := g.wrapMode.or h.wrapMode
    frame := g.frame.or h.frame
    customFrame := g.customFrame.or h.customFrame
    pageHeight := g.pageHeight.or h.pageHeight
    pageWidth := g.pageWidth.or h.pageWidth }

/-- Nothing is given. -/
def nothing : Given := {}

theorem nothing_overlay (c : Config) : nothing.overlay c = c := rfl

/-- Of settings in turn, the later ones go before the earlier. -/
theorem overlay_overlay (g h : Given) (c : Config) :
    g.overlay (h.overlay c) = (g.after h).overlay c := by
  simp only [overlay, after, Option.getD_or]

/-- What is over two configurations that differ says what is given. -/
theorem eq_of_getD {α : Type} {o p : Option α} {a b : α} (hne : a ≠ b) (ha : o.getD a = p.getD a)
    (hb : o.getD b = p.getD b) : o = p := by
  cases o with
  | none =>
    cases p with
    | none => rfl
    | some x => exact absurd (Eq.trans (b := x) ha hb.symm) hne
  | some x =>
    cases p with
    | none => exact absurd (Eq.trans (b := x) ha.symm hb) hne
    | some y => exact congrArg some ha

/-- A configuration in which no setting is as it is by default. -/
def unusual : Config := ⟨0, .long, .heavy, some [], some 0, some 0⟩

/-- Settings are told by what they make of two configurations that have nothing in common. -/
theorem eq_of_overlay {g h : Given} (hinitial : g.overlay .initial = h.overlay .initial)
    (hother : g.overlay unusual = h.overlay unusual) : g = h := by
  simp only [overlay, unusual, Config.mk.injEq] at hinitial hother
  obtain ⟨hversion, hmode, hframe, hcustom, hheight, hwidth⟩ := hinitial
  obtain ⟨hversion', hmode', hframe', hcustom', hheight', hwidth'⟩ := hother
  rw [Given.mk.injEq]
  exact ⟨eq_of_getD (by decide) hversion hversion', eq_of_getD (by decide) hmode hmode',
    eq_of_getD (by decide) hframe hframe', eq_of_getD (by decide) hcustom hcustom',
    eq_of_getD (by decide) hheight hheight', eq_of_getD (by decide) hwidth hwidth'⟩

/-- The settings that a configuration file gives: read over any configuration, it makes the
configuration with these settings over it. -/
def OfFile (g : Given) (bs : Bytes) : Prop :=
  ∀ base, Config.readOver base bs = .ok (g.overlay base)

theorem OfFile.unique {g h : Given} {bs : Bytes} (hg : g.OfFile bs) (hh : h.OfFile bs) : g = h :=
  have hsame (base : Config) : g.overlay base = h.overlay base :=
    Except.ok.inj ((hg base).symm.trans (hh base))
  eq_of_overlay (hsame .initial) (hsame unusual)

end Given

/-! ## Readings that do not look -/

/-- A reading into a configuration gives the same settings, ends in the same place and fails alike,
whatever configuration it is into. -/
def IsOverlay (f : Config → Except Fault (Config × Cursor)) : Prop :=
  ∃ r : Except Fault (Given × Cursor), ∀ base, f base = r.map fun p => (p.1.overlay base, p.2)

namespace IsOverlay

variable {α : Type}

theorem error (e : Fault) : IsOverlay fun _ => .error e := ⟨.error e, fun _ => rfl⟩

/-- A reading that gives nothing. -/
theorem same (c : Cursor) : IsOverlay fun base => .ok (base, c) := ⟨.ok (.nothing, c), fun _ => rfl⟩

theorem ite {p : Prop} [Decidable p] {f f' : Config → Except Fault (Config × Cursor)}
    (hf : IsOverlay f) (hf' : IsOverlay f') :
    IsOverlay fun base => if p then f base else f' base := by
  by_cases h : p
  · simpa only [if_pos h] using hf
  · simpa only [if_neg h] using hf'

/-- What is read before does not look at the configuration either. -/
theorem bind_const (x : Except Fault α) {f : Config → α → Except Fault (Config × Cursor)}
    (h : ∀ a, IsOverlay fun base => f base a) : IsOverlay fun base => x >>= f base := by
  cases x with
  | error e => exact error e
  | ok a => exact h a

/-- A value that is read and put as a setting. -/
theorem put (x : Except Fault (α × Cursor)) {f : Config → α → Config} (given : α → Given)
    (h : ∀ base a, f base a = (given a).overlay base) :
    IsOverlay fun base => x >>= fun p => .ok (f base p.1, p.2) :=
  bind_const x fun p => ⟨.ok (given p.1, p.2), fun base => by simp only [h]; rfl⟩

/-- Two readings in turn. -/
theorem bind {f : Config → Except Fault (Config × Cursor)}
    {f' : Cursor → Config → Except Fault (Config × Cursor)} (hf : IsOverlay f)
    (hf' : ∀ c, IsOverlay (f' c)) : IsOverlay fun base => f base >>= fun p => f' p.2 p.1 := by
  obtain ⟨r, hr⟩ := hf
  cases r with
  | error e => exact ⟨.error e, fun base => by simp only [hr]; rfl⟩
  | ok p =>
    obtain ⟨r', hr'⟩ := hf' p.2
    refine ⟨r'.map fun q => (q.1.after p.1, q.2), fun base => ?_⟩
    simp only [hr]
    refine (hr' _).trans ?_
    cases r' with
    | error e => rfl
    | ok q => exact congrArg (fun c => Except.ok (c, q.2)) (q.1.overlay_overlay p.1 base)

end IsOverlay

/-! ## Settings, objects and lists -/

/-- A value that was not expected is a fault, or hides one. -/
theorem refuse_eq_error {α : Type} (expected : String) (c : Cursor) :
    ∃ e, (refuse expected c : Except Fault α) = .error e := by
  have hbind : ∀ {β : Type} (x : Except Fault β) (f : β → Except Fault α),
      (∀ b, ∃ e, f b = .error e) → ∃ e, x >>= f = .error e := fun x f hf => by
    cases x with
    | error e => exact ⟨e, rfl⟩
    | ok b => exact hf b
  unfold refuse
  dsimp only
  cases c.byte? with
  | none => exact ⟨_, rfl⟩
  | some b =>
    dsimp only
    repeat' split
    all_goals first | exact ⟨_, rfl⟩ | exact hbind _ _ fun _ => ⟨_, rfl⟩

theorem Setting.read_isOverlay (s : Setting) (cursor : Cursor) :
    IsOverlay fun base => s.read base cursor := by
  cases s with
  | version =>
    exact .put (readNat versionLimit "u32" cursor) (f := fun base n => { base with version := n })
      (fun n => { version := some n }) fun _ _ => rfl
  | wrapMode =>
    exact .put (readChoice WrapMode.all WrapMode.name cursor)
      (f := fun base m => { base with wrapMode := m })
      (fun m => { wrapMode := some m }) fun _ _ => rfl
  | frame =>
    exact .put (readChoice FrameKind.all FrameKind.name cursor)
      (f := fun base k => { base with frame := k })
      (fun k => { frame := some k }) fun _ _ => rfl
  | customFrame =>
    exact .put (readOption (readText "a string") cursor)
      (f := fun base t => { base with customFrame := t })
      (fun t => { customFrame := some t }) fun _ _ => rfl
  | pageHeight =>
    exact .put (readOption (readNat wordLimit "usize") cursor)
      (f := fun base n => { base with pageHeight := n })
      (fun n => { pageHeight := some n }) fun _ _ => rfl
  | pageWidth =>
    exact .put (readOption (readNat wordLimit "usize") cursor)
      (f := fun base n => { base with pageWidth := n })
      (fun n => { pageWidth := some n }) fun _ _ => rfl

namespace Config

theorem readElements_isOverlay (isFirst : Bool) (ss : List Setting) (c : Cursor) :
    IsOverlay fun base => readElements isFirst ss base c := by
  induction ss generalizing isFirst c with
  | nil => exact .bind_const (readListEnd c) fun c => .same c
  | cons s ss ih =>
    have helement : ∀ c, IsOverlay fun base =>
        s.read base c >>= fun p => readElements false ss p.1 p.2 :=
      fun c => (s.read_isOverlay c).bind fun c => ih false c
    unfold readElements
    dsimp only
    cases (skipSpace c).byte? with
    | none => exact .error _
    | some b =>
      refine .ite (.bind_const (readListEnd _) fun c => .same c) (.ite (helement _) (.ite (.error _) ?_))
      cases (skipSpace ((skipSpace c).drop 1)).byte? with
      | none => exact .error _
      | some b => exact .ite (.error _) (helement _)

theorem readEntry_isOverlay
    {rest : List Setting → Config → Cursor → Except Fault (Config × Cursor)}
    (hrest : ∀ seen c, IsOverlay fun base => rest seen base c) (seen : List Setting) (c : Cursor) :
    IsOverlay fun base => readEntry rest seen base c := by
  refine .bind_const (readString (c.drop 1)) fun name => ?_
  dsimp only
  cases Setting.all.find? (fun s => s.name.toList == name.1) with
  | none => exact .error _
  | some s =>
    exact .ite (.error _) (.bind_const (readColon name.2) fun c =>
      (s.read_isOverlay c).bind fun c => hrest (s :: seen) c)

theorem readEntries_isOverlay (n : Nat) (seen : List Setting) (c : Cursor) :
    IsOverlay fun base => readEntries n seen base c := by
  induction n generalizing seen c with
  | zero => exact .error _
  | succ n ih =>
    unfold readEntries
    dsimp only
    cases (skipSpace c).byte? with
    | none => exact .error _
    | some b =>
      refine .ite (.same _)
        (.ite (.ite (readEntry_isOverlay ih seen _) (.error _)) (.ite (.error _) ?_))
      cases (skipSpace ((skipSpace c).drop 1)).byte? with
      | none => exact .error _
      | some b => exact .ite (readEntry_isOverlay ih seen _) (.ite (.error _) (.error _))

theorem readSettings_isOverlay (most : Nat) (c : Cursor) :
    IsOverlay fun base => readSettings most base c := by
  unfold readSettings
  cases c.byte? with
  | none => exact .error _
  | some b =>
    refine .ite (readEntries_isOverlay ..) (.ite (readElements_isOverlay ..) ?_)
    obtain ⟨e, he⟩ := refuse_eq_error (α := Config × Cursor) "struct ReaderConfig" c
    simp only [he]
    exact .error e

/-- A file that can be read over one configuration gives the same settings over any. -/
theorem exists_ofFile {base c : Config} {bs : Bytes} (h : readOver base bs = .ok c) :
    ∃ g : Given, g.OfFile bs := by
  obtain ⟨r, hr⟩ := readSettings_isOverlay (bs.length + 1) (skipSpace (Cursor.ofBytes bs))
  dsimp only at hr
  cases r with
  | error e =>
    rw [readOver, hr base] at h
    cases h
  | ok p =>
    have hread : ∀ base, readOver base bs =
        if (skipSpace p.2).rest.isEmpty then .ok (p.1.overlay base)
        else (skipSpace p.2).peeked .trailingCharacters := fun base => by
      rw [readOver, hr base]
      rfl
    by_cases hend : (skipSpace p.2).rest.isEmpty = true
    · exact ⟨p.1, fun base => by rw [hread, if_pos hend]⟩
    · rw [hread, if_neg hend] at h
      cases h

end Config

/-- What a file gives is told by reading it over two configurations that have nothing in common. -/
theorem Given.OfFile.of_read {g : Given} {bs : Bytes}
    (hinitial : (Config.readOver .initial bs).toOption = some (g.overlay .initial))
    (hother : (Config.readOver unusual bs).toOption = some (g.overlay unusual)) : g.OfFile bs := by
  cases hread : Config.readOver .initial bs with
  | error e => simp [hread, Except.toOption] at hinitial
  | ok c =>
    obtain ⟨h, hh⟩ := Config.exists_ofFile hread
    rw [hh .initial] at hinitial
    rw [hh unusual] at hother
    have hsame : h = g := eq_of_overlay (Option.some.inj hinitial) (Option.some.inj hother)
    exact hsame ▸ hh

end TextPager
