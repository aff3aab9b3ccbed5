import TextPager.Text.Basic

/-!
# Reading bytes as text

Files hold bytes. `Utf8.units` reads them as UTF-8: each unit is a character, or none for a
longest run of bytes that begins a character and cannot be continued. A lossy reading puts the
replacement character for each such run; a strict reading refuses them.

**Results.**
* `Utf8.units_ascii`: ASCII bytes are read as their characters.
* `Utf8.decode?_eq_some_iff`: a strict reading is a reading without broken runs.
-/
namespace TextPager

abbrev Bytes := List UInt8

/-- Stands for bytes that are no text. -/
def replacement : Char := '\uFFFD'

namespace Utf8

/-- Where the reading stands between two bytes. -/
inductive State where
  | start
  /-- Inside a character: the bits so far, the range of the next byte, and how many more follow
  it. -/
  | tail (bits low high more : Nat)
  deriving DecidableEq, Repr

/-- The unit that ends with the first byte of a character, and the state after it. -/
def first (b : Nat) : List (Option Char) × State :=
  if b < 0x80 then ([some (Char.ofNat b)], .start)
  else if b < 0xC2 then ([none], .start)
  else if b < 0xE0 then ([], .tail (b - 0xC0) 0x80 0xBF 0)
  else if b = 0xE0 then ([], .tail 0 0xA0 0xBF 1)
  else if b = 0xED then ([], .tail 0xD 0x80 0x9F 1)
  else if b < 0xF0 then ([], .tail (b - 0xE0) 0x80 0xBF 1)
  else if b = 0xF0 then ([], .tail 0 0x90 0xBF 2)
  else if b < 0xF4 then ([], .tail (b - 0xF0) 0x80 0xBF 2)
  else if b = 0xF4 then ([], .tail 4 0x80 0x8F 2)
  else ([none], .start)

/-- The units that end with a byte, and the state after it. -/
def next (s : State) (b : Nat) : List (Option Char) × State :=
  match s with
  | .start => first b
  | .tail bits low high more =>
    if low ≤ b ∧ b ≤ high then
      let bits := 64 * bits + (b - 0x80)
      match more with
      | 0 => ([some (Char.ofNat bits)], .start)
      | more + 1 => ([], .tail bits 0x80 0xBF more)
    else
      let (us, s) := first b
      (none :: us, s)

def unitsFrom : State → Bytes → List (Option Char)
  | .start, [] => []
  | .tail .., [] => [none]
  | s, b :: bs =>
    let (us, s) := next s b.toNat
    us ++ unitsFrom s bs

/-- The characters and the broken runs of bytes, in order. -/
def units (bs : Bytes) : List (Option Char) := unitsFrom .start bs

/-- The text of bytes, with a replacement character for every broken run. -/
def decodeLossy (bs : Bytes) : Text := (units bs).map fun u => u.getD replacement

/-- The text of bytes without broken runs. -/
def decode? (bs : Bytes) : Option Text := (units bs).mapM id

/-- ASCII bytes are read as their characters. -/
theorem units_ascii {bs : Bytes} (h : ∀ b ∈ bs, b.toNat < 0x80) :
    units bs = bs.map fun b => some (Char.ofNat b.toNat) := by
  unfold units
  induction bs with
  | nil => rfl
  | cons b bs ih =>
    have hb := h b List.mem_cons_self
    simp only [unitsFrom, next, first, hb, if_true, List.map_cons, List.cons_append,
      List.nil_append]
    rw [ih fun c hc => h c (List.mem_cons_of_mem _ hc)]

/-- A strict reading is a reading without broken runs. -/
theorem decode?_eq_some_iff {bs : Bytes} {t : Text} :
    decode? bs = some t ↔ units bs = t.map some := by
  unfold decode?
  generalize units bs = us
  induction us generalizing t with
  | nil => cases t <;> simp
  | cons u us ih =>
    cases u with
    | none => cases t <;> simp
    | some c =>
      cases t with
      | nil => simp [Option.bind_eq_some_iff]
      | cons d t =>
        simp only [List.mapM_cons, id, Option.bind_eq_bind, Option.bind_some, ih,
          Option.bind_eq_some_iff, Option.pure_def, Option.some.injEq, List.cons.injEq,
          List.map_cons]
        exact ⟨fun ⟨a, ha, hc, hd⟩ => ⟨hc, hd ▸ ha⟩, fun ⟨hc, ht⟩ => ⟨t, ht, hc, rfl⟩⟩

end Utf8

end TextPager
