import Mathlib.Algebra.GroupWithZero.Nat
import TextPager.Text.Utf8

/-!
# Bytes and the text they are read as

A lossy reading makes a text of any bytes. Two things tie the text to the bytes. A text that is
written as bytes is read back as it was. And whatever the bytes are, the reading finds an ASCII word
exactly where the bytes have one: an ASCII byte is never part of a longer character, and a character
of several bytes, or a run of bytes that is broken off, is never read as an ASCII character.

The second rests on what is known of a character that has begun. `State.Proper` says which numbers it
may still have: they are all numbers of characters, and none is that of an ASCII character, so a first
byte that would allow others is refused or narrows the range of the next.

**Results.**
* `decodeLossy_encode`: a text that is written is read back.
* `proper_next`: a character that has begun is never an ASCII character.
* `infix_decodeLossy_iff`: an ASCII word stands in the text exactly if it stands in the bytes.
-/
namespace TextPager.Utf8

/-- The bytes of a text. -/
def encode (t : Text) : Bytes := t.flatMap String.utf8EncodeChar

/-! ## First bytes -/

theorem first_ascii {b : Nat} (h : b < 0x80) : first b = ([some (Char.ofNat b)], .start) :=
  if_pos h

theorem first_two {b : Nat} (hlow : 0xC2 ≤ b) (hhigh : b < 0xE0) :
    first b = ([], .tail (b - 0xC0) 0x80 0xBF 0) := by
  rw [first, if_neg (by omega), if_neg (by omega), if_pos hhigh]

/-- The first of three bytes says their highest bits. Two such bytes narrow the range of the second. -/
theorem first_three {b : Nat} (hlow : 0xE0 ≤ b) (hhigh : b < 0xF0) :
    first b = ([], .tail (b - 0xE0) (if b = 0xE0 then 0xA0 else 0x80)
      (if b = 0xED then 0x9F else 0xBF) 1) := by
  rw [first, if_neg (by omega), if_neg (by omega), if_neg (by omega)]
  by_cases h0 : b = 0xE0
  · simp [h0]
  · by_cases hD : b = 0xED
    · simp [hD]
    · simp [h0, hD, hhigh]

/-- The first of four bytes says their highest bits. Two such bytes narrow the range of the second. -/
theorem first_four {b : Nat} (hlow : 0xF0 ≤ b) (hhigh : b ≤ 0xF4) :
    first b = ([], .tail (b - 0xF0) (if b = 0xF0 then 0x90 else 0x80)
      (if b = 0xF4 then 0x8F else 0xBF) 2) := by
  rw [first, if_neg (by omega), if_neg (by omega), if_neg (by omega), if_neg (by omega),
    if_neg (by omega), if_neg (by omega)]
  by_cases h0 : b = 0xF0
  · simp [h0]
  · by_cases h4 : b = 0xF4
    · simp [h4]
    · simp [h0, h4, show b < 0xF4 by omega]

/-- Every other byte begins no character. -/
theorem first_none {b : Nat} (h : 0x80 ≤ b ∧ b < 0xC2 ∨ 0xF4 < b) : first b = ([none], .start) := by
  unfold first
  repeat' split
  all_goals first | rfl | omega

/-! ## Writing and reading back -/

theorem unitsFrom_cons (s : State) (b : UInt8) (bs : Bytes) :
    unitsFrom s (b :: bs) = (next s b.toNat).1 ++ unitsFrom (next s b.toNat).2 bs := by
  cases s <;> rfl

theorem unitsFrom_start_cons {b : UInt8} {s : State} (h : first b.toNat = ([], s)) (bs : Bytes) :
    unitsFrom .start (b :: bs) = unitsFrom s bs := by
  rw [unitsFrom_cons, next, h]
  rfl

theorem unitsFrom_tail_cons {bits low high more : Nat} {b : UInt8}
    (h : low ≤ b.toNat ∧ b.toNat ≤ high) (bs : Bytes) :
    unitsFrom (.tail bits low high (more + 1)) (b :: bs) =
      unitsFrom (.tail (64 * bits + (b.toNat - 0x80)) 0x80 0xBF more) bs := by
  rw [unitsFrom_cons, next, if_pos h]
  rfl

theorem unitsFrom_tail_last {bits low high : Nat} {b : UInt8}
    (h : low ≤ b.toNat ∧ b.toNat ≤ high) (bs : Bytes) :
    unitsFrom (.tail bits low high 0) (b :: bs) =
      some (Char.ofNat (64 * bits + (b.toNat - 0x80))) :: unitsFrom .start bs := by
  rw [unitsFrom_cons, next, if_pos h]
  rfl

theorem toNat_ofNat_of_lt {n : Nat} (h : n < 256) : (UInt8.ofNat n).toNat = n := by
  rw [UInt8.toNat_ofNat', Nat.mod_eq_of_lt h]

/-- A number is that of a character if it lies below the surrogates, or above them and below the
limit. -/
theorem valid_toNat (c : Char) :
    c.toNat < 0xD800 ∨ (0xDFFF < c.toNat ∧ c.toNat < 0x110000) := c.valid

/-- A character that is written is read back, whatever follows it. -/
theorem unitsFrom_encodeChar (c : Char) (bs : Bytes) :
    unitsFrom .start (String.utf8EncodeChar c ++ bs) = some c :: unitsFrom .start bs := by
  have hc := valid_toNat c
  have hchar : ∀ v, v = c.toNat → Char.ofNat v = c := by
    rintro v rfl
    exact Char.ofNat_toNat c
  have hv : c.val.toNat = c.toNat := rfl
  unfold String.utf8EncodeChar
  dsimp only
  rw [hv]
  generalize hn : c.toNat = n at *
  split
  · rename_i h
    have hb := toNat_ofNat_of_lt (show n < 256 by omega)
    rw [List.singleton_append, unitsFrom_cons, hb, next, first_ascii (by omega), hchar n rfl]
    rfl
  · split
    · have hlead := toNat_ofNat_of_lt (show n / 64 % 32 + 192 < 256 by omega)
      have hlast := toNat_ofNat_of_lt (show n % 64 + 128 < 256 by omega)
      rw [List.cons_append, List.singleton_append,
        unitsFrom_start_cons (first_two (by omega) (by omega)), unitsFrom_tail_last (by omega),
        hlead, hlast, hchar _ (by omega)]
    · split
      · have hlead := toNat_ofNat_of_lt (show n / 4096 % 16 + 224 < 256 by omega)
        have hnext := toNat_ofNat_of_lt (show n / 64 % 64 + 128 < 256 by omega)
        have hlast := toNat_ofNat_of_lt (show n % 64 + 128 < 256 by omega)
        rw [List.cons_append, List.cons_append, List.singleton_append,
          unitsFrom_start_cons (first_three (by omega) (by omega)),
          unitsFrom_tail_cons (by constructor <;> split <;> omega), unitsFrom_tail_last (by omega),
          hlead, hnext, hlast, hchar _ (by omega)]
      · have hlead := toNat_ofNat_of_lt (show n / 262144 % 8 + 240 < 256 by omega)
        have hnext := toNat_ofNat_of_lt (show n / 4096 % 64 + 128 < 256 by omega)
        have hthird := toNat_ofNat_of_lt (show n / 64 % 64 + 128 < 256 by omega)
        have hlast := toNat_ofNat_of_lt (show n % 64 + 128 < 256 by omega)
        rw [List.cons_append, List.cons_append, List.cons_append, List.singleton_append,
          unitsFrom_start_cons (first_four (by omega) (by omega)),
          unitsFrom_tail_cons (by constructor <;> split <;> omega), unitsFrom_tail_cons (by omega),
          unitsFrom_tail_last (by omega), hlead, hnext, hthird, hlast, hchar _ (by omega)]

/-- A text that is written is read back. -/
theorem decodeLossy_encode (t : Text) : decodeLossy (encode t) = t := by
  have hunits : units (encode t) = t.map some := by
    unfold units encode
    induction t with
    | nil => rfl
    | cons c t ih => rw [List.flatMap_cons, unitsFrom_encodeChar, ih, List.map_cons]
  rw [decodeLossy, hunits, List.map_map]
  exact List.map_id t

/-! ## Characters that have begun -/

/-- A character that has begun is continued by bytes that are no ASCII characters, and whatever number
it may still have is that of a character, and of no ASCII character. -/
def State.Proper : State → Prop
  | .start => True
  | .tail bits low high more =>
    0x80 ≤ low ∧ ∀ v, (64 * bits + (low - 0x80)) * 64 ^ more ≤ v →
      v < (64 * bits + (high - 0x80) + 1) * 64 ^ more →
        0x80 ≤ v ∧ (v < 0xD800 ∨ (0xDFFF < v ∧ v < 0x110000))

theorem proper_first (b : Nat) : (first b).2.Proper := by
  rcases Nat.lt_or_ge b 0x80 with h | h
  · rw [first_ascii h]
    trivial
  · by_cases hnone : 0x80 ≤ b ∧ b < 0xC2 ∨ 0xF4 < b
    · rw [first_none hnone]
      trivial
    · rcases Nat.lt_or_ge b 0xE0 with h2 | h2
      · rw [first_two (by omega) h2]
        exact ⟨by omega, by omega⟩
      · rcases Nat.lt_or_ge b 0xF0 with h3 | h3
        · rw [first_three h2 h3]
          refine ⟨by split <;> omega, ?_⟩
          split <;> split <;> omega
        · rw [first_four h3 (by omega)]
          refine ⟨by split <;> omega, ?_⟩
          split <;> split <;> omega

/-- The next byte leaves a character that has begun fewer numbers. -/
theorem proper_next {s : State} (h : s.Proper) (b : Nat) : (next s b).2.Proper := by
  cases s with
  | start => exact proper_first b
  | tail bits low high more =>
    obtain ⟨hlow, hnumbers⟩ := h
    rw [next]
    split
    · rename_i hb
      cases more with
      | zero => trivial
      | succ more =>
        have hpow : ∀ x, x * 64 ^ (more + 1) = 64 * x * 64 ^ more := fun x => by
          rw [Nat.pow_succ', ← Nat.mul_assoc, Nat.mul_comm x 64]
        refine ⟨by omega, fun v hleast hmost => hnumbers v ?_ ?_⟩
        · calc (64 * bits + (low - 0x80)) * 64 ^ (more + 1)
              ≤ (64 * bits + (b - 0x80)) * 64 ^ (more + 1) := Nat.mul_le_mul_right _ (by omega)
            _ = (64 * (64 * bits + (b - 0x80)) + (0x80 - 0x80)) * 64 ^ more := by
              rw [hpow, Nat.sub_self, Nat.add_zero]
            _ ≤ v := hleast
        · calc v < (64 * (64 * bits + (b - 0x80)) + (0xBF - 0x80) + 1) * 64 ^ more := hmost
            _ = (64 * bits + (b - 0x80) + 1) * 64 ^ (more + 1) := by
              have hbits : 64 * (64 * bits + (b - 0x80)) + (0xBF - 0x80) + 1 =
                  64 * (64 * bits + (b - 0x80) + 1) := by omega
              rw [hpow, hbits]
            _ ≤ (64 * bits + (high - 0x80) + 1) * 64 ^ (more + 1) :=
              Nat.mul_le_mul_right _ (by omega)
    · exact proper_first b

/-! ## ASCII words -/

/-- The characters of units: a replacement character for every broken run. -/
def spelled (us : List (Option Char)) : Text := us.map fun u => u.getD replacement

/-- The text that is read from a state on. -/
def decodeFrom (s : State) (bs : Bytes) : Text := spelled (unitsFrom s bs)

theorem decodeFrom_cons (s : State) (b : UInt8) (bs : Bytes) :
    decodeFrom s (b :: bs) = spelled (next s b.toNat).1 ++ decodeFrom (next s b.toNat).2 bs := by
  rw [decodeFrom, unitsFrom_cons, spelled, List.map_append]
  rfl

/-- Bytes as ASCII characters. -/
def asciiText (w : Bytes) : Text := w.map fun b => Char.ofNat b.toNat

theorem toNat_char {n : Nat} (h : n < 0xD800 ∨ (0xDFFF < n ∧ n < 0x110000)) :
    (Char.ofNat n).toNat = n := by
  rw [Char.ofNat, dif_pos h]
  rfl

/-- An ASCII byte is read as its character, after a run that it breaks off. -/
theorem next_ascii {s : State} (h : s.Proper) {b : Nat} (hb : b < 0x80) :
    ∃ broken, next s b = (broken ++ [some (Char.ofNat b)], .start) ∧ ∀ u ∈ broken, u = none := by
  cases s with
  | start => exact ⟨[], by rw [next, first_ascii hb]; rfl, by simp⟩
  | tail bits low high more =>
    have hlow := h.1
    exact ⟨[none], by rw [next, if_neg (by omega), first_ascii hb]; rfl, by simp⟩

/-- No other byte ends an ASCII character. -/
theorem le_toNat_of_mem_next {s : State} (h : s.Proper) {b : Nat} (hb : 0x80 ≤ b) {c : Char}
    (hc : c ∈ spelled (next s b).1) : 0x80 ≤ c.toNat := by
  have hfirst : ∀ u ∈ (first b).1, u = none := by
    by_cases hnone : 0x80 ≤ b ∧ b < 0xC2 ∨ 0xF4 < b
    · simp [first_none hnone]
    · rcases Nat.lt_or_ge b 0xE0 with h2 | h2
      · simp [first_two (show 0xC2 ≤ b by omega) h2]
      · rcases Nat.lt_or_ge b 0xF0 with h3 | h3
        · simp [first_three h2 h3]
        · simp [first_four h3 (show b ≤ 0xF4 by omega)]
  have hreplacement : 0x80 ≤ replacement.toNat := by decide
  obtain ⟨u, hu, rfl⟩ := List.mem_map.1 hc
  cases s with
  | start => rwa [hfirst u hu]
  | tail bits low high more =>
    obtain ⟨hlow, hnumbers⟩ := h
    rw [next] at hu
    split at hu
    · cases more with
      | zero =>
        obtain rfl := List.mem_singleton.1 hu
        obtain ⟨hascii, hvalid⟩ := hnumbers (64 * bits + (b - 0x80)) (by omega) (by omega)
        rw [Option.getD_some, toNat_char hvalid]
        exact hascii
      | succ more => cases hu
    · rcases List.mem_cons.1 hu with rfl | hu
      · exact hreplacement
      · rwa [hfirst u hu]

/-- A byte that ends no unit leaves a character begun. -/
theorem next_snd_ne_start {s : State} {b : Nat} (h : (next s b).1 = []) : (next s b).2 ≠ .start := by
  have hfirst : (first b).1 = [] → (first b).2 ≠ .start := by
    unfold first
    repeat' split
    all_goals simp
  cases s with
  | start => exact hfirst h
  | tail bits low high more =>
    revert h
    rw [next]
    split
    · cases more <;> simp
    · simp

/-- A character that has begun is read as a character that is not ASCII, or as the replacement of
one. -/
theorem decodeFrom_begun {s : State} (hs : s.Proper) (hbegun : s ≠ .start) (bs : Bytes) :
    ∃ c t, decodeFrom s bs = c :: t ∧ 0x80 ≤ c.toNat := by
  induction bs generalizing s with
  | nil =>
    cases s with
    | start => exact absurd rfl hbegun
    | tail => exact ⟨replacement, [], rfl, by decide⟩
  | cons b bs ih =>
    rw [decodeFrom_cons]
    cases hunits : spelled (next s b.toNat).1 with
    | nil =>
      exact ih (proper_next hs _) (next_snd_ne_start (List.map_eq_nil_iff.1 hunits))
    | cons c t =>
      refine ⟨c, t ++ decodeFrom (next s b.toNat).2 bs, rfl, ?_⟩
      rcases Nat.lt_or_ge b.toNat 0x80 with hb | hb
      · -- The byte itself is ASCII, but what it breaks off comes first.
        cases s with
        | start => exact absurd rfl hbegun
        | tail bits low high more =>
          have hlow := hs.1
          rw [next, if_neg (by omega), first_ascii hb] at hunits
          obtain ⟨rfl, -⟩ := List.cons.inj hunits
          decide
      · exact le_toNat_of_mem_next hs hb (hunits ▸ List.mem_cons_self)

theorem decodeFrom_start_ascii {b : UInt8} (hb : b.toNat < 0x80) (bs : Bytes) :
    decodeFrom .start (b :: bs) = Char.ofNat b.toNat :: decodeFrom .start bs := by
  rw [decodeFrom_cons, next, first_ascii hb]
  rfl

theorem decodeFrom_start_nonascii {b : UInt8} (hb : 0x80 ≤ b.toNat) (bs : Bytes) :
    ∃ c t, decodeFrom .start (b :: bs) = c :: t ∧ 0x80 ≤ c.toNat := by
  rw [decodeFrom_cons]
  cases hunits : spelled (next .start b.toNat).1 with
  | nil =>
    exact decodeFrom_begun (proper_first _) (next_snd_ne_start (List.map_eq_nil_iff.1 hunits)) bs
  | cons c t =>
    exact ⟨c, _, rfl, le_toNat_of_mem_next (s := .start) trivial hb (hunits ▸ List.mem_cons_self)⟩

theorem toNat_ascii {b : UInt8} (hb : b.toNat < 0x80) : (Char.ofNat b.toNat).toNat = b.toNat :=
  toNat_char (by omega)

/-- An ASCII word begins the text exactly if it begins the bytes. -/
theorem prefix_decodeFrom_iff {w : Bytes} (hw : ∀ b ∈ w, b.toNat < 0x80) (bs : Bytes) :
    asciiText w <+: decodeFrom .start bs ↔ w <+: bs := by
  induction w generalizing bs with
  | nil => simp [asciiText]
  | cons a w ih =>
    have ha := hw a List.mem_cons_self
    have htail := ih fun b hb => hw b (List.mem_cons_of_mem _ hb)
    cases bs with
    | nil => simp [asciiText, decodeFrom, spelled, unitsFrom]
    | cons b bs =>
      rcases Nat.lt_or_ge b.toNat 0x80 with hb | hb
      · have hab : Char.ofNat a.toNat = Char.ofNat b.toNat ↔ a = b :=
          ⟨fun h => UInt8.toNat_inj.1 (by rw [← toNat_ascii ha, h, toNat_ascii hb]),
            fun h => by rw [h]⟩
        rw [decodeFrom_start_ascii hb, asciiText, List.map_cons, List.cons_prefix_cons,
          List.cons_prefix_cons, hab, ← htail bs]
        rfl
      · obtain ⟨c, t, hread, hc⟩ := decodeFrom_start_nonascii hb bs
        have hbyte : a ≠ b := by rintro rfl; omega
        have hchar : Char.ofNat a.toNat ≠ c := by rintro rfl; rw [toNat_ascii ha] at hc; omega
        rw [hread, asciiText, List.map_cons, List.cons_prefix_cons, List.cons_prefix_cons]
        simp [hbyte, hchar]

/-- Characters that are not ASCII do not begin an ASCII word. -/
theorem infix_nonascii_append_iff {w : Bytes} (hne : w ≠ []) (hw : ∀ b ∈ w, b.toNat < 0x80)
    {p : Text} (hp : ∀ c ∈ p, 0x80 ≤ c.toNat) (t : Text) :
    asciiText w <:+: p ++ t ↔ asciiText w <:+: t := by
  obtain ⟨a, w, rfl⟩ := List.exists_cons_of_ne_nil hne
  have ha := hw a List.mem_cons_self
  induction p with
  | nil => rfl
  | cons c p ih =>
    have hc := hp c List.mem_cons_self
    have hchar : Char.ofNat a.toNat ≠ c := by rintro rfl; rw [toNat_ascii ha] at hc; omega
    have hrest : asciiText (a :: w) <:+: p ++ t ↔ asciiText (a :: w) <:+: t :=
      ih fun c h => hp c (List.mem_cons_of_mem _ h)
    rw [List.cons_append, List.infix_cons_iff, hrest, asciiText, List.map_cons,
      List.cons_prefix_cons]
    simp [hchar]

theorem infix_decodeFrom_iff {w : Bytes} (hne : w ≠ []) (hw : ∀ b ∈ w, b.toNat < 0x80) {s : State}
    (hs : s.Proper) (bs : Bytes) : asciiText w <:+: decodeFrom s bs ↔ w <:+: bs := by
  have hskip : ∀ {p : Text} (t : Text), (∀ c ∈ p, 0x80 ≤ c.toNat) →
      (asciiText w <:+: p ++ t ↔ asciiText w <:+: t) :=
    fun t hp => infix_nonascii_append_iff hne hw hp t
  induction bs generalizing s with
  | nil =>
    have hempty : ¬ asciiText w <:+: ([] : Text) := by simpa [asciiText] using hne
    have hread : asciiText w <:+: decodeFrom s [] ↔ asciiText w <:+: [] := by
      cases s with
      | start => rfl
      | tail => exact hskip (p := [replacement]) [] (by simp; decide)
    rw [hread]
    simpa [hempty] using hne
  | cons b bs ih =>
    rw [List.infix_cons_iff]
    rcases Nat.lt_or_ge b.toNat 0x80 with hb | hb
    · obtain ⟨broken, hnext, hbroken⟩ := next_ascii hs hb
      have hnonascii : ∀ c ∈ spelled broken, 0x80 ≤ c.toNat := by
        intro c hc
        obtain ⟨u, hu, rfl⟩ := List.mem_map.1 hc
        rw [hbroken u hu]
        decide
      have hread : decodeFrom s (b :: bs) = spelled broken ++ decodeFrom .start (b :: bs) := by
        rw [decodeFrom_cons, hnext, decodeFrom_start_ascii hb]
        simp [spelled]
      have hrest : asciiText w <:+: decodeFrom .start bs ↔ w <:+: bs := ih trivial
      rw [hread, hskip _ hnonascii, ← prefix_decodeFrom_iff hw, ← hrest,
        decodeFrom_start_ascii hb, List.infix_cons_iff]
    · have hhead : ¬ w <+: b :: bs := by
        obtain ⟨a, w, rfl⟩ := List.exists_cons_of_ne_nil hne
        have ha := hw a List.mem_cons_self
        rw [List.cons_prefix_cons]
        rintro ⟨rfl, -⟩
        omega
      have hrest : asciiText w <:+: decodeFrom (next s b.toNat).2 bs ↔ w <:+: bs :=
        ih (proper_next hs _)
      rw [decodeFrom_cons, hskip _ fun c hc => le_toNat_of_mem_next hs hb hc, hrest]
      simp [hhead]

/-- An ASCII word stands in the text exactly if it stands in the bytes, whatever else they are. -/
theorem infix_decodeLossy_iff {w : Bytes} (hne : w ≠ []) (hw : ∀ b ∈ w, b.toNat < 0x80)
    (bs : Bytes) : asciiText w <:+: decodeLossy bs ↔ w <:+: bs :=
  infix_decodeFrom_iff hne hw (s := .start) trivial bs

end TextPager.Utf8
