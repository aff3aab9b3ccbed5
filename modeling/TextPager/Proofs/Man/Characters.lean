import TextPager.Proofs.Man.PageLines
import TextPager.Proofs.Man.Phrases
import TextPager.Proofs.Man.TreeShape
import TextPager.Proofs.Text.FilledLines

/-!
# The characters of a page

Layout sets the strings of a page's tokens and little else: spaces, newlines, the parentheses of a
title and the brackets of an option, the escape sequences of its styles, and letters in upper case.
A class of characters that holds what is added, and every character of the page, holds every
character of what is laid out. The page is laid out from trees, so the class is carried up the tree,
from the strings of a token and the lines of the tokens inside it to its own lines.

**Results.**
* `Admits.header`, `Admits.footer`: the lines at the head and at the foot of a page.
* `madeOf_layout`, `madeOf_phrases`, `madeOf_sectionLines`, `madeOf_synopsisLines`: the lines of a
  token, by induction on the tree with one case for each token.
* `madeOf_renderPage`: the text of a page.
-/
namespace TextPager.Man

/-- A class of characters that title lines do not leave. Every character from `A` on is of the
class, so upper case does not leave it either. -/
structure Admits (P : Char → Prop) : Prop where
  space : P ' '
  parens : P '(' ∧ P ')'
  letters : ∀ c : Char, 0x41 ≤ c.toNat → P c

/-- A class of characters that a page laid out with the styles does not leave. -/
structure AdmitsPages (P : Char → Prop) (s : Styles) : Prop extends Admits P where
  newline : P '\n'
  bold : madeOf P s.bold
  underline : madeOf P s.underline
  normal : madeOf P s.normal
  /-- What a link is made of, but for letters and a bracket. -/
  link : s.links = true → ∀ c ∈ [esc, '8', ';', ':'], P c

/-- Layout adds no control character of its own but newlines and those of the styles. -/
theorem admits_ne {x : Char} (hx : x.toNat < 0x20) : Admits (· ≠ x) := by
  have hne : ∀ c : Char, 0x20 ≤ c.toNat → c ≠ x := by
    rintro c hc rfl
    omega
  exact ⟨hne _ (by decide), ⟨hne _ (by decide), hne _ (by decide)⟩, fun c hc => hne c (by omega)⟩

/-- The strings of the token are of a class. -/
def Token.MadeOf (P : Char → Prop) (t : Token) : Prop := ∀ x ∈ t.strings, madeOf P x

/-! ## Titles -/

namespace Admits

variable {P : Char → Prop} (h : Admits P)

include h

theorem upper {t : Text} (ht : madeOf P t) : madeOf P t.upper := by
  intro d hd
  obtain ⟨c, hc, hd⟩ := List.mem_flatMap.1 hd
  rcases mem_upperChar hd with rfl | hlarge
  · exact ht d hc
  · exact h.letters d hlarge

theorem spaces (n : Nat) : madeOf P (Text.spaces n) := Text.forall_mem_spaces h.space n

theorem spread {left middle right : Text} (hl : madeOf P left) (hm : madeOf P middle)
    (hr : madeOf P right) (width : Nat) : madeOf P (spread left middle right width) :=
  (((hl.append (h.spaces _)).append hm).append (h.spaces _)).append hr

variable {t : Title} (ht : (Token.title t).MadeOf P)

include ht

theorem name : madeOf P t.name := by
  have htitle : madeOf P t.title := ht _ (by simp [Token.strings])
  have hchapter : madeOf P t.chapter := ht _ (by simp [Token.strings])
  unfold Title.name
  split
  · exact h.upper htitle
  · exact (((h.upper htitle).snoc h.parens.1).append (h.upper hchapter)).snoc h.parens.2

theorem header (width : Nat) : ∀ l ∈ t.header width, madeOf P l := by
  have hmiddle : madeOf P t.headerMiddle := ht _ (by simp [Token.strings])
  have hline := h.spread (h.name ht) hmiddle (h.name ht) width
  simpa [Title.header, madeOf_nil] using hline

theorem footer (width : Nat) : ∀ l ∈ t.footer width, madeOf P l := by
  have hinside : madeOf P t.footerInside := ht _ (by simp [Token.strings])
  have hmiddle : madeOf P t.footerMiddle := ht _ (by simp [Token.strings])
  have hline := h.spread hinside hmiddle (h.name ht) width
  simpa [Title.footer, madeOf_nil] using hline

end Admits

/-! ## Lines -/

/-- The lines of a paragraph hold what its tags and its body hold, if that may stand right of
spaces and share a line. -/
theorem forall_tagLines {Q : Text → Prop} (hindent : ∀ k l, Q l → Q (Text.spaces k ++ l))
    (hpad : ∀ k a b, Q a → Q b → Q (a ++ Text.spaces k ++ b)) {tags body : List Text} {indent : Nat}
    (htags : ∀ t ∈ tags, Q t) (hbody : ∀ l ∈ body, Q l) : ∀ l ∈ tagLines tags body indent, Q l := by
  have hlines : ∀ ls : List Text, (∀ l ∈ ls, Q l) → ∀ l ∈ indentLines indent ls, Q l := by
    intro ls hls l hl
    obtain ⟨m, hm, rfl⟩ := List.mem_map.1 hl
    exact hindent indent m (hls m hm)
  unfold tagLines
  split
  · exact hlines body hbody
  · rename_i last hlast
    have hdrop : ∀ t ∈ tags.dropLast, Q t := fun t ht =>
      htags t ((List.dropLast_sublist tags).subset ht)
    have hlast : Q last := htags last (List.mem_of_getLast? hlast)
    refine List.forall_mem_append.2 ⟨hdrop, ?_⟩
    cases body with
    | nil => exact List.forall_mem_singleton.2 hlast
    | cons first rest =>
      obtain ⟨hfirst, hrest⟩ := List.forall_mem_cons.1 hbody
      dsimp only
      split
      · exact List.forall_mem_cons.2 ⟨hpad _ last first hlast hfirst, hlines rest hrest⟩
      · exact List.forall_mem_cons.2 ⟨hlast, hlines _ hbody⟩

theorem madeOf_ended {P : Char → Prop} (hn : P '\n') {ls : List Text} (h : ∀ l ∈ ls, madeOf P l) :
    madeOf P (Text.ended ls) := by
  intro c hc
  obtain ⟨l, hl, hc⟩ := List.mem_flatMap.1 hc
  exact (h l hl).snoc hn c hc

theorem madeOf_joinLines {P : Char → Prop} (hn : P '\n') {ls : List Text}
    (h : ∀ l ∈ ls, madeOf P l) : madeOf P (Text.joinLines ls) :=
  Text.forall_mem_intercalate (List.forall_mem_singleton.2 hn) h

/-- The foot of a page is made of the strings of its titles. -/
theorem madeOf_footText {P : Char → Prop} (h : Admits P) (hn : P '\n') {ts : List Token}
    (hts : ∀ t ∈ ts, t.MadeOf P) (width : Nat) : madeOf P (footText ts width) := by
  unfold footText
  split
  · rename_i t ht
    obtain ⟨u, hu, hut⟩ := List.mem_filterMap.1 (List.mem_of_getLast? ht)
    cases u with
    | title t' =>
      cases hut
      exact madeOf_ended hn (h.footer (hts _ hu) width)
    | _ => cases hut
  · exact madeOf_nil

namespace AdmitsPages

variable {P : Char → Prop} {s : Styles} (h : AdmitsPages P s)

include h

theorem styled {start t : Text} (hstart : madeOf P start) (ht : madeOf P t) :
    madeOf P (s.styled start t) := by
  unfold Styles.styled
  split
  · exact ht
  · exact (hstart.append ht).append h.normal

theorem apply (e : Emphasis) {t : Text} (ht : madeOf P t) : madeOf P (s.apply e t) := by
  cases e with
  | bold => exact h.styled h.bold ht
  | underline => exact h.styled h.underline ht
  | roman => exact ht

theorem alternate {ts : List Text} (hts : ∀ t ∈ ts, madeOf P t) (e o : Emphasis) :
    ∀ t ∈ Font.alternate s e o ts, madeOf P t := by
  induction ts generalizing e o with
  | nil => simp [Font.alternate]
  | cons t ts ih =>
    obtain ⟨ht, hts⟩ := List.forall_mem_cons.1 hts
    exact List.forall_mem_cons.2 ⟨h.apply e ht, ih hts o e⟩

theorem font (f : Font) {t : Text} (ht : madeOf P t) : madeOf P (f.render s t) := by
  unfold Font.render
  split
  · exact madeOf_joinWords h.space
      (h.alternate (fun p hp c hc => ht c (Text.mem_of_mem_pieces hp hc)) _ _)
  · exact h.apply _ ht

theorem optionText {name : Text} {argument : Option Text} (hn : madeOf P name)
    (ha : ∀ a ∈ argument, madeOf P a) : madeOf P (optionText s name argument) := by
  have hopen : madeOf P ['['] := List.forall_mem_singleton.2 (h.letters '[' (by decide))
  have hclose : P ']' := h.letters ']' (by decide)
  have hname := hopen.append (h.apply .bold hn)
  cases argument with
  | none => exact hname.snoc hclose
  | some a => exact ((hname.snoc h.space).append (h.apply .underline (ha a rfl))).snoc hclose

theorem hyperlink {target t : Text} (htarget : s.links = true → madeOf P target)
    (ht : madeOf P t) : madeOf P (s.hyperlink target t) := by
  unfold Styles.hyperlink
  split
  · rename_i hlinks
    have hmarks : ∀ u : Text,
        u.all (fun c => 0x41 ≤ c.toNat ∨ c ∈ [esc, '8', ';', ':']) = true → madeOf P u :=
      fun u hu c hc => (Text.forall_mem_of_all hu c hc).elim (h.letters c) (h.link hlinks c)
    have hopen : madeOf P "\x1b]8;;".toList := hmarks _ (by decide)
    have hsep : madeOf P "\x1b\\".toList := hmarks _ (by decide)
    have hclose : madeOf P "\x1b]8;;\x1b\\".toList := hmarks _ (by decide)
    exact (((hopen.append (htarget hlinks)).append hsep).append ht).append hclose
  · exact ht

theorem linkText (kind : LinkKind) {address contents punctuation : Text} (ha : madeOf P address)
    (hc : madeOf P contents) (hp : madeOf P punctuation) :
    madeOf P (linkText s kind address contents punctuation) := by
  have hscheme : s.links = true → madeOf P kind.scheme := fun hlinks => by
    have hmail : ∀ c ∈ "mailto:".toList, 0x41 ≤ c.toNat ∨ c = ':' :=
      Text.forall_mem_of_all (by decide)
    cases kind with
    | email => exact fun c hc => (hmail c hc).elim (h.letters c) fun he =>
        he ▸ h.link hlinks ':' (by decide)
    | url => exact madeOf_nil
  have hwords : madeOf P (Text.joinWords contents.words) :=
    madeOf_joinWords h.space fun w hw c hcw => hc c (Text.mem_of_mem_words hw hcw)
  have hshown : madeOf P (if (Text.joinWords contents.words).isEmpty then address
      else Text.joinWords contents.words) := by
    split
    · exact ha
    · exact hwords
  exact (h.hyperlink (fun hlinks => (hscheme hlinks).append ha) hshown).append hp

theorem wrap {t : Text} (ht : madeOf P t) (n : Nat) : ∀ l ∈ t.wrap n, madeOf P l :=
  fun _ hl => Text.mem_of_mem_wrapWith h.space ht hl

theorem indentLines (n : Nat) {ls : List Text} (hls : ∀ l ∈ ls, madeOf P l) :
    ∀ l ∈ indentLines n ls, madeOf P l := by
  intro l hl
  obtain ⟨m, hm, rfl⟩ := List.mem_map.1 hl
  exact (h.spaces n).append (hls m hm)

theorem paragraphLines {tags : List Text} {body : Text} (htags : ∀ t ∈ tags, madeOf P t)
    (hbody : madeOf P body) (width indent : Nat) :
    ∀ l ∈ paragraphLines tags body width indent, madeOf P l :=
  forall_tagLines (fun k _ hl => (h.spaces k).append hl)
    (fun k _ _ ha hb => (ha.append (h.spaces k)).append hb)
    (fun t ht => htags t (List.mem_filter.1 ht).1) (h.wrap hbody _)

theorem commandLines {command : Text} {units : List Text} (hc : madeOf P command)
    (hu : ∀ u ∈ units, madeOf P u) (width : Nat) :
    ∀ l ∈ commandLines s command units width, madeOf P l := by
  have hfill : ∀ l ∈ Text.fillHanging (s.apply .bold command :: units) width
      (width - (command.width + 1)), madeOf P l := fun l hl =>
    Text.mem_of_mem_fill h.space (List.forall_mem_cons.2 ⟨h.apply .bold hc, hu⟩) hl
  unfold Man.commandLines
  dsimp only
  split
  · simp
  · rename_i first rest heq
    rw [heq] at hfill
    obtain ⟨hfirst, hrest⟩ := List.forall_mem_cons.1 hfill
    exact List.forall_mem_cons.2 ⟨hfirst, h.indentLines _ hrest⟩

theorem inText (t : Token) {ls : List Text} (hls : ∀ l ∈ ls, madeOf P l) :
    madeOf P (t.inText ls) := by
  unfold Token.inText
  split
  · exact madeOf_joinLines h.newline hls
  · exact fun c hc => madeOf_ended h.newline hls c (Text.mem_of_mem_dropEndWhile hc)

end AdmitsPages

/-! ## Tokens, by induction on the tree -/

section Tokens

variable {P : Char → Prop} {s : Styles} (h : AdmitsPages P s)

include h

mutual

/-- The lines of a token are of the class if the strings of its family are. -/
theorem madeOf_layout : ∀ (t : Token), (∀ u ∈ t.family, u.MadeOf P) → ∀ width indent,
    ∀ l ∈ t.layout s width indent, madeOf P l
  | .text line, ht, _, _ => by
    have hline : madeOf P line := (Token.forall_family_iff.1 ht).1 line (by simp [Token.strings])
    simpa [Token.layout] using hline
  | .unknown line, ht, _, _ => by
    have hline : madeOf P line := (Token.forall_family_iff.1 ht).1 line (by simp [Token.strings])
    simpa [Token.layout] using hline
  | .title t, ht, width, _ => by
    rw [Token.layout]
    exact h.header (Token.forall_family_iff.1 ht).1 width
  | .heading rank heading contents, ht, width, _ => by
    obtain ⟨hown, hinside⟩ := Token.forall_family_iff.1 ht
    have hheading : madeOf P heading := hown heading (by simp [Token.strings])
    rw [Token.layout]
    exact List.forall_mem_cons.2 ⟨(h.spaces _).append (h.apply .bold hheading),
      madeOf_sectionLines contents hinside _ [] (by simp)⟩
  | .paragraph contents, ht, width, _ => by
    have hinside := (Token.forall_family_iff.1 ht).2
    have hbody := madeOf_joinWords h.space (madeOf_phrases contents hinside width)
    rw [Token.layout]
    exact h.paragraphLines (by simp) hbody _ _
  | .indented tag i contents, ht, width, indent => by
    obtain ⟨hown, hinside⟩ := Token.forall_family_iff.1 ht
    have hbody := madeOf_joinWords h.space (madeOf_phrases contents hinside width)
    rw [Token.layout]
    exact h.paragraphLines hown hbody _ _
  | .tagged tags i contents, ht, width, indent => by
    have hinside := (Token.forall_family_iff.1 ht).2
    rw [Token.children, families_append, List.forall_mem_append] at hinside
    have htags := madeOf_phrases tags hinside.1 width
    have hbody := madeOf_joinWords h.space (madeOf_phrases contents hinside.2 width)
    rw [Token.layout]
    exact h.paragraphLines htags hbody _ _
  | .verbatim ls, ht, width, _ => by
    have hlines := madeOf_phrases ls (Token.forall_family_iff.1 ht).2 width
    rw [Token.layout, List.forall_mem_map]
    exact fun l hl c hc => hlines l hl c (Text.mem_truncate hc)
  | .shiftIn _, _, _, _ => by simp [Token.layout]
  | .shiftOut _, _, _, _ => by simp [Token.layout]
  | .synopsis command contents, ht, width, _ => by
    obtain ⟨hown, hinside⟩ := Token.forall_family_iff.1 ht
    have hcommand : madeOf P command := hown command (by simp [Token.strings])
    rw [Token.layout]
    exact madeOf_synopsisLines contents hinside width command [] hcommand (by simp)
  | .option name argument, ht, _, _ => by
    have hown := (Token.forall_family_iff.1 ht).1
    have hname : madeOf P name := hown name (by simp [Token.strings])
    have hargument : ∀ a ∈ argument, madeOf P a := fun a ha => hown a (by simp_all [Token.strings])
    rw [Token.layout]
    exact List.forall_mem_singleton.2 (h.optionText hname hargument)
  | .link kind address contents punctuation, ht, width, _ => by
    obtain ⟨hown, hinside⟩ := Token.forall_family_iff.1 ht
    have haddress : madeOf P address := hown address (by simp [Token.strings])
    have hpunctuation : madeOf P punctuation := hown punctuation (by simp [Token.strings])
    have hbody := madeOf_joinWords h.space (madeOf_phrases contents hinside width)
    rw [Token.layout]
    exact List.forall_mem_singleton.2 (h.linkText kind haddress hbody hpunctuation)
  | .font f t, ht, _, _ => by
    have htext : madeOf P t := (Token.forall_family_iff.1 ht).1 t (by simp [Token.strings])
    rw [Token.layout]
    exact List.forall_mem_singleton.2 (h.font f htext)

/-- Running text is of the class. -/
theorem madeOf_phrases : ∀ (ts : List Token), (∀ u ∈ families ts, u.MadeOf P) → ∀ width,
    ∀ l ∈ phrases s ts width, madeOf P l
  | [], _, _ => by simp [phrases]
  | t :: ts, hts, width => by
    rw [families_cons, List.forall_mem_append] at hts
    rw [phrases]
    exact List.forall_mem_cons.2 ⟨h.inText t (madeOf_layout t hts.1 width defaultIndent),
      madeOf_phrases ts hts.2 width⟩

/-- The body of a section is of the class if the phrases that wait are. -/
theorem madeOf_sectionLines : ∀ (ts : List Token), (∀ u ∈ families ts, u.MadeOf P) →
    ∀ width prose, (∀ l ∈ prose, madeOf P l) → ∀ l ∈ sectionLines s ts width prose, madeOf P l
  | [], _, width, prose, hprose => by
    rw [sectionLines]
    exact h.indentLines _ (h.wrap (madeOf_joinWords h.space hprose) _)
  | t :: ts, hts, width, prose, hprose => by
    rw [families_cons, List.forall_mem_append] at hts
    have hlayout := madeOf_layout t hts.1 width defaultIndent
    rw [sectionLines]
    split
    · have hlines : ∀ l ∈ (Text.ended (t.layout s width defaultIndent)).lines, madeOf P l :=
        fun l hl c hc => madeOf_ended h.newline hlayout c (mem_lines hl hc).1
      have hfilled := h.wrap (madeOf_joinWords h.space hprose) width
      refine List.forall_mem_append.2 ⟨List.forall_mem_append.2
        ⟨h.indentLines _ hfilled, h.indentLines _ hlines⟩, ?_⟩
      exact madeOf_sectionLines ts hts.2 width [] (by simp)
    · refine madeOf_sectionLines ts hts.2 width _ (List.forall_mem_append.2 ⟨hprose, ?_⟩)
      exact List.forall_mem_singleton.2 (h.inText t hlayout)

/-- A synopsis is of the class if the command in progress and its units are. -/
theorem madeOf_synopsisLines : ∀ (ts : List Token), (∀ u ∈ families ts, u.MadeOf P) →
    ∀ width command units, madeOf P command → (∀ u ∈ units, madeOf P u) →
      ∀ l ∈ synopsisLines s ts width command units, madeOf P l
  | [], _, width, command, units, hcommand, hunits => by
    rw [synopsisLines]
    exact h.commandLines hcommand hunits width
  | t :: ts, hts, width, command, units, hcommand, hunits => by
    rw [families_cons, List.forall_mem_append] at hts
    have hlayout := madeOf_layout t hts.1 width defaultIndent
    cases hn : t.isSynopsis with
    | false =>
      rw [synopsisLines_cons hn]
      exact madeOf_synopsisLines ts hts.2 width command _ hcommand (List.forall_mem_append.2
        ⟨hunits, List.forall_mem_singleton.2 (h.inText t hlayout)⟩)
    | true =>
      cases t with
      | synopsis next contents =>
        obtain ⟨hown, hinside⟩ := Token.forall_family_iff.1 hts.1
        have hnext : madeOf P next := hown next (by simp [Token.strings])
        rw [synopsisLines]
        exact List.forall_mem_append.2 ⟨h.commandLines hcommand hunits width,
          madeOf_synopsisLines ts hts.2 width next _ hnext (madeOf_phrases contents hinside width)⟩
      | _ => cases hn

end

/-! ## The page -/

theorem Placed.madeOf_lines {p : Placed} (hp : ∀ u ∈ p.token.family, u.MadeOf P) (width : Nat) :
    ∀ l ∈ p.lines s width, madeOf P l := by
  have hinner : ∀ l ∈ p.inner s width, madeOf P l := madeOf_layout h p.token hp _ _
  have hput : ∀ l, madeOf P l → madeOf P (putMargin (p.edge width) l) := by
    intro l hl
    unfold putMargin
    split
    · exact hl
    · exact (h.spaces _).append hl
  refine List.forall_mem_append.2 ⟨fun l hl => ?_, fun l hl => ?_⟩
  · obtain ⟨piece, hpiece, rfl⟩ := List.mem_map.1 hl
    obtain ⟨line, hline, hpiece⟩ := List.mem_flatMap.1 hpiece
    exact hput piece fun c hc => hinner line hline c (Text.mem_of_mem_pieces hpiece hc)
  · split at hl
    · rw [List.mem_singleton.1 hl]
      exact madeOf_nil
    · cases hl

theorem madeOf_render {ts : List Token} (hts : ∀ u ∈ families ts, u.MadeOf P) (width : Nat) :
    madeOf P (render s width ts) := by
  have hlines : ∀ l ∈ (placed 0 defaultIndent ts).flatMap (Placed.lines s (max width 1)),
      madeOf P l := by
    intro l hl
    obtain ⟨p, hp, hl⟩ := List.mem_flatMap.1 hl
    exact Placed.madeOf_lines h (forall_families_iff.1 hts p.token (mem_placed hp)) _ l hl
  have hfoot := madeOf_footText h.toAdmits h.newline
    (fun t ht => hts t (mem_families_of_mem ht)) (max width 1)
  rw [render, renderFrom_eq]
  exact (madeOf_ended h.newline hlines).append hfoot

/-- What is laid out from a page whose characters are of the class is of the class. -/
theorem madeOf_renderPage {page : Text} (hpage : madeOf P page) (width : Nat) :
    madeOf P (renderPage s width page) := by
  have hlines : ∀ line ∈ page.lines, madeOf P line := fun line hl c hc =>
    hpage c (mem_lines hl hc).1
  have hbuilt := tokens_built h.space hlines
  refine madeOf_render h (forall_families_iff.2 fun t ht u hu => ?_) width
  exact (Token.forall_family_sound (hbuilt t ht) u hu).strings

end Tokens

end TextPager.Man
