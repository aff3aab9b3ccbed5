import TextPager.Document
import TextPager.Proofs.Text.Encoding

/-!
# Line endings

A carriage return before a newline is dropped when a file is read. The text is made in one pass, so a
carriage return that is dropped can leave another one before the newline: that happens where two of
them stand before a newline, and nowhere else. Such a text is not read again as it is when it is
written.

Whether it happens can be told from the bytes, since carriage returns and newlines are ASCII
characters.

**Results.**
* `crlf_infix_unixLines_iff`: what is left of the old line endings.
* `unixLines_eq_self_iff`: the texts that a pass leaves as they are.
* `textOfBytes_unix_iff`: the files whose line endings are all made one newline.
-/
namespace TextPager

/-- What a pass does not take for an old line ending does not begin with one. -/
theorem not_begins_crlf {c : Char} {t : Text} (hpair : ∀ u, c = '\r' → t = '\n' :: u → False) :
    ¬ ['\r', '\n'] <+: c :: t := by
  rintro ⟨u, hu⟩
  obtain ⟨rfl, rfl⟩ := List.cons.inj hu
  exact hpair u rfl rfl

theorem newline_prefix_unixLines_iff (t : Text) :
    ['\n'] <+: unixLines t ↔ ['\n'] <+: t ∨ ['\r', '\n'] <+: t := by
  fun_cases unixLines t with
  | case1 => simp
  | case2 t => simp
  | case3 c t hpair =>
    rw [or_iff_left (not_begins_crlf hpair), List.cons_prefix_cons, List.cons_prefix_cons]
    simp

/-- A pass leaves a carriage return before a newline exactly where two of them stood before it. -/
theorem crlf_infix_unixLines_iff (t : Text) :
    ['\r', '\n'] <:+: unixLines t ↔ ['\r', '\r', '\n'] <:+: t := by
  fun_induction unixLines t with
  | case1 => simp
  | case2 t ih => simp [List.infix_cons_iff, ih]
  | case3 c t hpair ih =>
    have hstart : ['\r', '\n'] <+: c :: unixLines t ↔ ['\r', '\r', '\n'] <+: c :: t := by
      rw [List.cons_prefix_cons, List.cons_prefix_cons, newline_prefix_unixLines_iff]
      refine and_congr_right fun hc => or_iff_right fun hnewline => ?_
      obtain ⟨u, hu⟩ := hnewline
      exact hpair u hc.symm hu.symm
    rw [List.infix_cons_iff, List.infix_cons_iff, hstart, ih]

/-- A pass leaves a text as it is exactly if no carriage return stands before a newline. -/
theorem unixLines_eq_self_iff (t : Text) : unixLines t = t ↔ ¬ ['\r', '\n'] <:+: t := by
  fun_induction unixLines t with
  | case1 => simp
  | case2 t => simp [List.infix_cons_iff]
  | case3 c t hpair ih =>
    rw [List.cons_inj_right, ih, List.infix_cons_iff, or_iff_right (not_begins_crlf hpair)]

/-- The texts of two carriage returns and a newline, and their bytes. -/
theorem crcrlf_infix_decodeLossy_iff (bs : Bytes) :
    ['\r', '\r', '\n'] <:+: Utf8.decodeLossy bs ↔ [13, 13, 10] <:+: bs :=
  Utf8.infix_decodeLossy_iff (w := [13, 13, 10]) (by simp) (by simp) bs

/-- **The files whose line endings are all made one newline.** Whatever bytes a file has, its text
holds no carriage return before a newline exactly if the bytes have no two carriage returns before a
newline; and these are the files whose text is read again as it is when it is written. -/
theorem textOfBytes_unix_iff (bs : Bytes) :
    (¬ ['\r', '\n'] <:+: textOfBytes bs ↔ ¬ [13, 13, 10] <:+: bs) ∧
      (textOfBytes (Utf8.encode (textOfBytes bs)) = textOfBytes bs ↔ ¬ [13, 13, 10] <:+: bs) := by
  have hleft : ['\r', '\n'] <:+: textOfBytes bs ↔ [13, 13, 10] <:+: bs := by
    rw [textOfBytes, crlf_infix_unixLines_iff, crcrlf_infix_decodeLossy_iff]
  have hagain : textOfBytes (Utf8.encode (textOfBytes bs)) = unixLines (textOfBytes bs) := by
    rw [textOfBytes, Utf8.decodeLossy_encode]
  exact ⟨not_congr hleft, by rw [hagain, unixLines_eq_self_iff, not_congr hleft]⟩

/-- A second carriage return is left before the newline, and dropped when the text is read again. -/
theorem textOfBytes_crcrlf :
    ['\r', '\n'] <:+: textOfBytes [13, 13, 10] ∧
      textOfBytes (Utf8.encode (textOfBytes [13, 13, 10])) = ['\n'] := by
  decide

end TextPager
