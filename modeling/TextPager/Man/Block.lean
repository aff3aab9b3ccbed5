import TextPager.Man.Request

/-!
# Blocks

A page is read line by line. At most one block is open at a time; a line is first offered to it.
The block may take the line and stay open, take it and close, or close and leave the line to
whatever comes next. Reading never fails: an unknown macro is a token too.

**Results.**
* `OpenBlock.close_of_declines`: a block that leaves a line closes as it would at the end of the
  page.
* `readFrom_append`, `readFrom_cons`: the tokens of a page are those of its first lines and then
  those read from where they leave off.
-/
namespace TextPager.Man

/-- A line of content. -/
inductive Content where
  | text (line : Text)
  | unknown (line : Text)
  | font (font : Font) (text : Text)
  /-- A font whose text is the next line. -/
  | awaiting (font : Font)
  deriving DecidableEq, Repr

namespace Content

/-- Classifies a line of content. A line that makes no request is text. -/
def ofLine (line : Text) : Content :=
  match Request.ofLine? line with
  | none => text line
  | some ⟨.font f, args⟩ =>
    if args.isEmpty && f.takesNextLine then awaiting f else font f (Text.joinWords args)
  | some _ => unknown (line.drop 1)

/-- The text a line of content carries. -/
def text? : Content → Option Text
  | text t | unknown t | font _ t => some t
  | awaiting _ => none

end Content

/-- Tokens collected line by line. -/
structure Body where
  tokens : List Token
  /-- A font macro without argument, waiting for its line. -/
  pending : Option Font

namespace Body

def empty : Body := ⟨[], none⟩

/-- Adds a token. -/
def push (b : Body) (t : Token) : Body := { b with tokens := b.tokens ++ [t] }

/-- Adds a line; a waiting font takes it whatever it is. -/
def add (b : Body) (line : Text) : Body :=
  match b.pending with
  | some f => ⟨b.tokens ++ [.font f line], none⟩
  | none => match Content.ofLine line with
    | .text t => b.push (.text t)
    | .unknown t => b.push (.unknown t)
    | .font f t => b.push (.font f t)
    | .awaiting f => { b with pending := some f }

end Body

/-- The token of an option macro. -/
def optionToken : List Text → Token
  | [] => .option [] none
  | [name] => .option name none
  | name :: argument => .option name (some (Text.joinWords argument))

/-- The step of a shift of the margin. -/
def shiftStep (args : List Text) : Nat := (args.head?.bind indent?).getD 1

/-- A synopsis in progress. -/
structure OpenSynopsis where
  command : Text
  body : Body

namespace OpenSynopsis

def ofArgs (args : List Text) : OpenSynopsis := ⟨Text.joinWords args, .empty⟩

def close (s : OpenSynopsis) : Token := .synopsis s.command s.body.tokens

/-- Offers a line; none when the line closes the synopsis. Only its own end closes it. -/
def offer (s : OpenSynopsis) (line : Text) : Option OpenSynopsis :=
  if line.isEmpty then some s
  else match Request.ofLine? line with
    | some ⟨.endSynopsis, _⟩ => none
    | some ⟨.option, args⟩ => some { s with body := s.body.push (optionToken args) }
    | some ⟨.synopsis, args⟩ =>
      some { s with body := s.body.push (.synopsis (Text.joinWords args) []) }
    | _ => some { s with body := s.body.add line }

end OpenSynopsis

/-- The block in progress. -/
inductive OpenBlock where
  /-- A heading, which may wait for its text and may have a synopsis open inside it. -/
  | heading (rank : HeadingRank) (heading : Option Text) (body : Body)
      (inner : Option OpenSynopsis)
  | paragraph (body : Body)
  | indented (tag : Option Text) (indent : Option Nat) (body : Body)
  /-- A tagged paragraph, which may wait for a tag. -/
  | tagged (indent : Option Nat) (tags : Body) (awaitsTag : Bool) (body : Body)
  | verbatim (body : Body)
  | synopsis (synopsis : OpenSynopsis)
  | link (kind : LinkKind) (address : Text) (body : Body)
  /-- A font macro waiting for its line. -/
  | font (font : Font)

/-- What a block does with a line. -/
inductive Offer where
  /-- The block takes the line and stays open. -/
  | keeps (block : OpenBlock)
  /-- The line completes the block. -/
  | closes (token : Token)
  /-- The block is complete and the line belongs to what comes next. -/
  | declines (token : Token)

namespace OpenBlock

/-- The token of a block that ends here. -/
def close : OpenBlock → Token
  | heading rank h body inner =>
    let body := match inner with
      | some s => body.push s.close
      | none => body
    .heading rank (h.getD []) body.tokens
  | paragraph body => .paragraph body.tokens
  | indented tag indent body => .indented tag indent body.tokens
  | tagged indent tags _ body =>
    .tagged (if tags.tokens.isEmpty then [.text []] else tags.tokens) indent body.tokens
  | verbatim body => .verbatim body.tokens
  | synopsis s => s.close
  | link kind address body => .link kind address body.tokens []
  | font f => .font f []

/-- Offers a line to the body of a paragraph or a section. An empty line closes the block, a
structural macro ends it unless a font waits for its line, and anything else is content. -/
def absorb (body : Body) (line : Text) (resume : Body → OpenBlock) : Offer :=
  if line.isEmpty then .closes (resume body).close
  else if body.pending.isNone && isStructural line then .declines (resume body).close
  else .keeps (resume (body.add line))

/-- Offers a line to the open block. -/
def offer : OpenBlock → Text → Offer
  | heading rank h body (some s), line =>
    match s.offer line with
    | some s => .keeps (heading rank h body (some s))
    | none => .keeps (heading rank h (body.push s.close) none)
  | heading rank none body none, line =>
    if line.isEmpty then .keeps (heading rank none body none)
    else if isStructural line then .declines (close (heading rank none body none))
    else .keeps (heading rank (Content.ofLine line).text? body none)
  | heading rank (some h) body none, line =>
    match Request.ofLine? line with
    | some ⟨.synopsis, args⟩ => .keeps (heading rank (some h) body (some (.ofArgs args)))
    | _ => absorb body line fun b => heading rank (some h) b none
  | paragraph body, line => absorb body line paragraph
  | indented tag indent body, line => absorb body line (indented tag indent)
  | tagged indent tags true body, line =>
    if line.isEmpty || keyword? line == some .furtherTag then .keeps (tagged indent tags true body)
    else if isStructural line then .declines (close (tagged indent tags true body))
    else
      let tags := tags.add line
      .keeps (tagged indent tags tags.pending.isSome body)
  | tagged indent tags false body, line =>
    if keyword? line == some .furtherTag then .keeps (tagged indent tags true body)
    else absorb body line (tagged indent tags false)
  | verbatim body, line =>
    if keyword? line == some .endVerbatim then .closes (close (verbatim body))
    else if isStructural line then .declines (close (verbatim body))
    else .keeps (verbatim (body.add line))
  | synopsis s, line =>
    match s.offer line with
    | some s => .keeps (synopsis s)
    | none => .closes s.close
  | link kind address body, line =>
    match Request.ofLine? line with
    | some ⟨.endLink, args⟩ => .closes (.link kind address body.tokens (Text.joinWords args))
    | _ =>
      if line.isEmpty then .keeps (link kind address body)
      else if isStructural line then .declines (close (link kind address body))
      else .keeps (link kind address (body.add line))
  | font f, line => .closes (.font f line)

end OpenBlock

/-- Reads a line while no block is open: the tokens it makes, and the block it opens. -/
def startLine (line : Text) : List Token × Option OpenBlock :=
  match Request.ofLine? line with
  | none => ([.text line], none)
  | some ⟨keyword, args⟩ => match keyword with
    | .title => ([.title (.ofArgs args)], none)
    | .heading rank =>
      let heading := if args.isEmpty then none else some (Text.joinWords args)
      ([], some (.heading rank heading .empty none))
    | .paragraph => ([], some (.paragraph .empty))
    | .indented => ([], some (.indented args.head? (args[1]?.bind indent?) .empty))
    | .tagged | .furtherTag => ([], some (.tagged (args.head?.bind indent?) .empty true .empty))
    | .shiftIn => ([.shiftIn (shiftStep args)], none)
    | .shiftOut => ([.shiftOut (shiftStep args)], none)
    | .verbatim => ([], some (.verbatim .empty))
    | .synopsis => ([], some (.synopsis (.ofArgs args)))
    | .option => ([optionToken args], none)
    | .link kind => ([], some (.link kind (args.headD []) .empty))
    | .endVerbatim | .endSynopsis | .endLink => ([], none)
    | .font _ | .unknown => match Content.ofLine line with
      | .text t => ([.text t], none)
      | .unknown t => ([.unknown t], none)
      | .font f t => ([.font f t], none)
      | .awaiting f => ([], some (.font f))

/-- Reads one line: the tokens it completes, and the block that is open after it. -/
def readLine (current : Option OpenBlock) (line : Text) : List Token × Option OpenBlock :=
  if isComment line then ([], current)
  else match current with
    | none => startLine line
    | some block => match block.offer line with
      | .keeps block => ([], some block)
      | .closes token => ([token], none)
      | .declines token =>
        let (tokens, next) := startLine line
        (token :: tokens, next)

/-- Reads lines: the tokens they complete, and the block that is open after them. -/
def readLines : Option OpenBlock → List Text → List Token × Option OpenBlock
  | current, [] => ([], current)
  | current, line :: lines =>
    let (now, next) := readLine current line
    let (later, last) := readLines next lines
    (now ++ later, last)

/-- The tokens of lines read with a block open; the end of the page closes what is left open. -/
def readFrom (current : Option OpenBlock) (lines : List Text) : List Token :=
  let (tokens, last) := readLines current lines
  tokens ++ (last.map OpenBlock.close).toList

/-- The tokens of a manual page. -/
def tokens (page : Text) : List Token := readFrom none page.lines

/-! ## Closing and joining -/

theorem OpenBlock.close_of_absorb {body : Body} {line : Text} {resume : Body → OpenBlock}
    {t : Token} (h : absorb body line resume = .declines t) : t = (resume body).close := by
  grind [absorb]

/-- A block that leaves a line closes as it would at the end of the page. -/
theorem OpenBlock.close_of_declines {b : OpenBlock} {line : Text} {t : Token}
    (h : b.offer line = .declines t) : t = b.close := by
  unfold offer at h
  split at h <;> grind [close_of_absorb]

theorem readLines_append (current : Option OpenBlock) (a b : List Text) :
    readLines current (a ++ b) =
      ((readLines current a).1 ++ (readLines (readLines current a).2 b).1,
        (readLines (readLines current a).2 b).2) := by
  induction a generalizing current with
  | nil => rfl
  | cons line a ih => simp [readLines, ih]

/-- The tokens of a page are those its first lines complete, then those read from where these
leave off. -/
theorem readFrom_append (current : Option OpenBlock) (a b : List Text) :
    readFrom current (a ++ b) =
      (readLines current a).1 ++ readFrom (readLines current a).2 b := by
  simp [readFrom, readLines_append]

theorem readFrom_cons (current : Option OpenBlock) (line : Text) (lines : List Text) :
    readFrom current (line :: lines) =
      (readLine current line).1 ++ readFrom (readLine current line).2 lines := by
  simp [readFrom, readLines]

end TextPager.Man
