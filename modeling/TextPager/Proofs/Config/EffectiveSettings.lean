import TextPager.Program
import TextPager.Proofs.Config.GivenSettings

/-!
# The effective settings

A setting may be given on the command line or in the configuration file, and has a default. The three
are put over one another in steps, and one of the steps also takes a setting away: a frame by name on
the command line undoes a custom frame of the file. `Given.effective` says at once what comes of it.
The result is checked and not what it is made of, so what a file sets badly does no harm where the
command line sets it.

What passes the check is all that is needed later on: there is a frame to draw, and the pages have a
height and a width.

**Results.**
* `Given.override_overlay`: the steps together make the effective settings.
* `Config.check_eq_ok_iff_honoured`: the check refuses the settings that cannot be honoured.
* `Program.resolve_effective`: what a configuration is resolved to, when it is, and what can be done
  with it.
-/
namespace TextPager

/-! ## Settings over settings -/

/-- Each setting from the command line, else from the file, else by default. A custom frame of the
file counts only where the command line names no frame. -/
def Given.effective (g : Given) (l : CommandLine) : Config :=
  { version := g.version.getD configVersion
    wrapMode := l.wrap.getD (g.wrapMode.getD .detect)
    frame := l.frame.getD (g.frame.getD .light)
    customFrame :=
      match l.customFrame, l.frame with
      | some parts, _ => some parts
      | none, some _ => none
      | none, none => g.customFrame.getD none
    pageHeight := l.height.or (g.pageHeight.getD none)
    pageWidth := l.width.or (g.pageWidth.getD none) }

/-- The steps together make the effective settings. -/
theorem Given.override_overlay (g : Given) (l : CommandLine) :
    (g.overlay Config.initial).override l = g.effective l := by
  unfold Config.override Given.effective
  cases l.customFrame with
  | some parts => rfl
  | none => cases l.frame <;> rfl

/-! ## Settings that can be honoured -/

/-- The version is understood, pages are not empty, and a custom frame has all its parts. -/
structure Config.Honoured (c : Config) : Prop where
  version : c.version = configVersion
  height : c.pageHeight ≠ some 0
  width : c.pageWidth ≠ some 0
  parts : ∀ parts ∈ c.customFrame, parts.length = framePartCount

namespace Config

/-- The check refuses the settings that cannot be honoured. -/
theorem check_eq_ok_iff_honoured (c : Config) : c.check = .ok () ↔ c.Honoured := by
  have hframe : (∃ f, c.frame? = .ok f) ↔
      ∀ parts ∈ c.customFrame, parts.length = framePartCount := by
    unfold frame?
    cases c.customFrame with
    | none => simp
    | some parts =>
      simp only [Option.mem_some_iff, forall_eq']
      constructor
      · rintro ⟨f, hf⟩
        rw [← Frame.parts_of_ofParts? hf, Frame.length_parts]
      · intro hparts
        obtain ⟨f, hf, -⟩ := Frame.exists_ofParts? hparts
        exact ⟨f, hf⟩
  rw [check_eq_ok_iff, hframe]
  exact ⟨fun ⟨hversion, hheight, hwidth, hparts⟩ => ⟨hversion, hheight, hwidth, hparts⟩,
    fun h => ⟨h.version, h.height, h.width, h.parts⟩⟩

namespace Honoured

variable {c : Config} (h : c.Honoured)

include h

/-- There is a frame to draw: the custom frame, or else that of the kind. -/
theorem exists_frame : ∃ f, c.frame? = .ok f ∧ f.parts = c.customFrame.getD c.frame.frame.parts := by
  have hparts := h.parts
  unfold frame?
  cases hcustom : c.customFrame with
  | none => exact ⟨c.frame.frame, rfl, rfl⟩
  | some parts => exact Frame.exists_ofParts? (hparts parts hcustom)

/-- The pages that are printed are as high as they were asked for. -/
theorem height_printer (title text : Text) :
    (c.printer title text).height = c.pageHeight.getD defaultPageHeight := by
  have hheight := h.height
  refine Nat.max_eq_left (Nat.pos_of_ne_zero ?_)
  cases hp : c.pageHeight with
  | none => decide
  | some n => simpa [hp] using hheight

/-- The pages that are printed are as wide as they were asked for. -/
theorem width_printer (title text : Text) :
    (c.printer title text).width = c.pageWidth.getD defaultPageWidth := by
  have hwidth := h.width
  refine Nat.max_eq_left (Nat.pos_of_ne_zero ?_)
  cases hp : c.pageWidth with
  | none => decide
  | some n => simpa [hp] using hwidth

end Honoured

end Config

/-! ## Resolving -/

/-- The settings that the configuration file of a command line gives; nothing if it names no file. -/
def Given.OfConfigFile (g : Given) (t : FileTree) (l : CommandLine) : Prop :=
  match l.config with
  | none => g = .nothing
  | some path => ∃ bs, t.read path = .ok bs ∧ g.OfFile bs

/-- What follows a reading follows from what is read. -/
theorem FileTree.run_read_bind {ε α : Type} (t : FileTree) (path : Text)
    (k : Except FileError Bytes → ExceptT ε (StateM FileTree) α) :
    (ExceptT.run (liftM (fileSystem.read path) >>= k)).run t = (k (t.read path)).run.run t := rfl

namespace Program

/-- The effective settings are checked, and nothing else is. -/
theorem resolve_run {t : FileTree} {l : CommandLine} {g : Given} (hg : g.OfConfigFile t l) :
    (resolve FileTree.fileSystem l).run.run t =
      ((match (g.effective l).check with
        | .error r => .error (.refused r)
        | .ok () => .ok (g.effective l)), t) := by
  have hover : ∀ base, base = g.overlay Config.initial →
      base.resolve l = (g.effective l).check.map fun _ => g.effective l := by
    rintro base rfl
    rw [Config.resolve, Given.override_overlay]
    cases (g.effective l).check <;> rfl
  unfold Given.OfConfigFile at hg
  cases hconfig : l.config with
  | none =>
    simp only [hconfig] at hg
    subst hg
    simp only [resolve, hconfig, pure_bind, hover _ (Given.nothing_overlay _).symm]
    cases (Given.nothing.effective l).check <;> rfl
  | some path =>
    simp only [hconfig] at hg
    obtain ⟨bs, hread, hfile⟩ := hg
    have hjson : Config.ofJson bs = .ok (g.overlay Config.initial) := hfile Config.initial
    simp only [resolve, hconfig]
    rw [FileTree.run_read_bind, hread]
    simp only [hjson, pure_bind, hover _ rfl]
    cases (g.effective l).check <;> rfl

/-- **What a configuration is resolved to.** Let a command line name no configuration file, or one
that can be read and is a configuration. Then the command line is resolved exactly if its effective
settings can be honoured, and to exactly these settings: there is a frame to draw, with the parts of
the custom frame in order, or else with those of the frame's kind, and the printed pages have the
height and the width that are asked for. -/
theorem resolve_effective (t : FileTree) (l : CommandLine)
    (hfile : ∀ path ∈ l.config, ∃ bs c, t.read path = .ok bs ∧ Config.ofJson bs = .ok c) :
    ∃ (g : Given) (result : Except ConfigError Config),
      g.OfConfigFile t l ∧ (resolve FileTree.fileSystem l).run.run t = (result, t) ∧
        ((∃ c, result = .ok c) ↔ (g.effective l).Honoured) ∧
        ∀ c, result = .ok c →
          c = g.effective l ∧
          (∃ f, c.frame? = .ok f ∧ f.parts = c.customFrame.getD c.frame.frame.parts) ∧
          ∀ title text, (c.printer title text).height = c.pageHeight.getD defaultPageHeight ∧
            (c.printer title text).width = c.pageWidth.getD defaultPageWidth := by
  obtain ⟨g, hg⟩ : ∃ g : Given, g.OfConfigFile t l := by
    unfold Given.OfConfigFile
    cases hconfig : l.config with
    | none => exact ⟨.nothing, rfl⟩
    | some path =>
      obtain ⟨bs, c, hread, hjson⟩ := hfile path hconfig
      obtain ⟨g, hg⟩ := Config.exists_ofFile hjson
      exact ⟨g, bs, hread, hg⟩
  have hchecked := Config.check_eq_ok_iff_honoured (g.effective l)
  refine ⟨g, _, hg, resolve_run hg, ?_⟩
  cases hcheck : (g.effective l).check with
  | error r =>
    have hrefused : ¬ (g.effective l).Honoured := fun h => by
      rw [hchecked.2 h] at hcheck
      cases hcheck
    refine ⟨⟨fun ⟨c, hc⟩ => ?_, fun h => absurd h hrefused⟩, fun c hc => ?_⟩ <;> cases hc
  | ok u =>
    have hh := hchecked.1 hcheck
    refine ⟨⟨fun _ => hh, fun _ => ⟨g.effective l, rfl⟩⟩, fun c hc => ?_⟩
    obtain rfl := Except.ok.inj hc
    exact ⟨rfl, hh.exists_frame, fun title text =>
      ⟨hh.height_printer title text, hh.width_printer title text⟩⟩

/-- A configuration file with a custom frame of two parts. -/
def twoPartsFile : Bytes :=
  "\x7b\"wrap_mode\": \"long\", \"custom_frame\": \"=|\"\x7d".toList.flatMap String.utf8EncodeChar

/-- A custom frame of two parts in the file does no harm where the command line names a frame. -/
theorem resolve_effective_twoPartsFile :
    let t : FileTree := ⟨[(["c".toList], .file twoPartsFile)], []⟩
    let l : CommandLine :=
      ⟨"a".toList, none, some .heavy, none, some "c".toList, none, true, some 5, none⟩
    (∀ path ∈ l.config, ∃ bs c, t.read path = .ok bs ∧ Config.ofJson bs = .ok c) ∧
      (resolve FileTree.fileSystem l).run.run t =
        (.ok ⟨configVersion, .long, .heavy, none, some 5, none⟩, t) := by
  intro t l
  have hread : t.read "c".toList = .ok twoPartsFile := rfl
  have hgiven : Given.OfFile { wrapMode := some .long, customFrame := some (some "=|".toList) }
      twoPartsFile := .of_read (by decide +kernel) (by decide +kernel)
  have hfile : ∀ path ∈ l.config, ∃ bs c, t.read path = .ok bs ∧ Config.ofJson bs = .ok c := by
    rintro path ⟨⟩
    exact ⟨twoPartsFile, _, hread, hgiven Config.initial⟩
  obtain ⟨g, result, ⟨bs, hbs, hg⟩, hrun, hsucceeds, hresult⟩ := resolve_effective t l hfile
  obtain rfl : twoPartsFile = bs := Except.ok.inj (hread.symm.trans hbs)
  obtain rfl : g = { wrapMode := some .long, customFrame := some (some "=|".toList) } :=
    hg.unique hgiven
  obtain ⟨c, rfl⟩ := hsucceeds.2 ⟨rfl, by decide, by decide, by decide⟩
  obtain ⟨rfl, -⟩ := hresult c rfl
  exact ⟨hfile, hrun⟩

end Program

end TextPager
