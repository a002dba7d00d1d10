import Mailshot.Yaml.Token.Name
import Mailshot.Yaml.Token.Scalar

/-!
# The tokens of a text

* `Lexer` — what is known at a place of the text: the tokens so far, the indentations of the open
  block collections, and, for each open flow collection, where a key may have begun.
* `Lexer.step` — one token further.
* `Token.ofText` — all tokens of a text.  From the place where it cannot be read on, there is one
  token that says so.

A key is known as one only at its colon, so its marks are put in front of a token that was read
before.
-/

namespace Mailshot.Yaml

/-- A place where a key may have begun. -/
structure PossibleKey where
  /-- The number of tokens in front of it. -/
  number : Nat
  /-- It must turn out to be a key: it stands where the collection around it begins its entries. -/
  required : Bool
  index : Nat
  line : Nat
  column : Nat

/-- What is known at a place of the text. -/
structure Lexer where
  cursor : Cursor
  tokens : Array Token
  /-- The indentation of the innermost open block collection, below zero if there is none. -/
  indent : Int
  /-- The indentations of the collections around it. -/
  outer : List Int
  /-- Whether a key, or an entry of a block collection, may begin here. -/
  keyAllowed : Bool
  /-- The possible key of the block level or innermost flow collection. -/
  candidate : Option PossibleKey
  /-- The possible keys of the flow collections around it, and of the block level. -/
  suspended : List (Option PossibleKey)
  done : Bool

namespace Lexer

/-- The beginning of a text. -/
def start (text : List Char) (stop : Option Fault) : Lexer where
  cursor := Cursor.start text stop
  tokens := #[]
  indent := -1
  outer := []
  keyAllowed := true
  candidate := none
  suspended := []
  done := false

/-- Whether a flow collection is open. -/
def inFlow (x : Lexer) : Bool := !x.suspended.isEmpty

/-- A token is added, and the text is read up to a place. -/
def emit (x : Lexer) (token : Token) (after : Cursor) : Lexer :=
  { x with tokens := x.tokens.push token, cursor := after }

/-! ## Possible keys -/

/-- The greatest number of characters between the beginning of a key and its colon. -/
def keyLimit : Nat := 1024

/-- A possible key is given up when its line has ended or it is too long. -/
def isStale (c : Cursor) (key : PossibleKey) : Bool :=
  key.line ≠ c.line || key.index + keyLimit < c.index

/-- No possible key is left; one that had to be a key is missed. -/
def dropCandidate (x : Lexer) : Except Fault Lexer :=
  match x.candidate with
  | some key => if key.required then .error .malformed else .ok { x with candidate := none }
  | none => .ok x

/-- The possible keys that are not stale. -/
def dropStale (x : Lexer) : Except Fault Lexer := do
  let fresh (candidate : Option PossibleKey) : Except Fault (Option PossibleKey) :=
    match candidate with
    | some key =>
        if isStale x.cursor key then (if key.required then .error .malformed else .ok none)
        else .ok (some key)
    | none => .ok none
  return { x with candidate := ← fresh x.candidate, suspended := ← x.suspended.mapM fresh }

/-- The number of tokens in front of the first place where a key may still turn out to have begun.
Only these are known for certain to come next. -/
def settled (x : Lexer) : Nat :=
  (x.candidate :: x.suspended).foldl (fun least candidate =>
    match candidate with
    | some key => if isStale x.cursor key then least else min least key.number
    | none => least) x.tokens.size

/-- The tokens of a text that cannot be read on from here: those that are settled, and one that says
what is wrong. -/
def cut (x : Lexer) (fault : Fault) : Array Token := (x.tokens.take x.settled).push (.broken fault)

/-- A key may begin here, if one is allowed. -/
def saveCandidate (x : Lexer) : Except Fault Lexer :=
  if x.keyAllowed then do
    let x ← x.dropCandidate
    let c := x.cursor
    let required := !x.inFlow && x.indent = (c.column : Int)
    return { x with candidate := some ⟨x.tokens.size, required, c.index, c.line, c.column⟩ }
  else .ok x

/-! ## Indentation -/

/-- The block collections that are indented deeper than a column are closed. -/
def closeBlocks (column : Int) (tokens : Array Token) : Int → List Int → Array Token × Int × List Int
  | indent, [] => (tokens, indent, [])
  | indent, above :: rest =>
      if column < indent then closeBlocks column (tokens.push .blockEnd) above rest
      else (tokens, indent, above :: rest)

/-- Outside flow collections, the block collections deeper than a column are closed. -/
def unwind (x : Lexer) (column : Int) : Lexer :=
  if x.inFlow then x
  else
    let (tokens, indent, outer) := closeBlocks column x.tokens x.indent x.outer
    { x with tokens := tokens, indent := indent, outer := outer }

/-- A block collection is opened in front of a token when its column is deeper than the open one. -/
def openBlock (x : Lexer) (column : Nat) (number : Nat) (token : Token) : Lexer :=
  if x.indent < (column : Int) then
    { x with
      tokens := x.tokens.insertIdxIfInBounds number token
      indent := column
      outer := x.indent :: x.outer }
  else x

/-! ## Tokens -/

/-- The place of the next token, behind blanks, comments and line breaks; whether a key is allowed
there. -/
def toNextToken (flow keyAllowed : Bool) (c : Cursor) : Cursor × Bool :=
  let c' := c.skipComment
  if isBreak c'.peek then
    if _h : c'.next.rest.length < c.rest.length then
      toNextToken flow (keyAllowed || !flow) c'.next
    else (c', keyAllowed)
  else (c', keyAllowed)
termination_by c.rest.length

/-- The end of the text. -/
def finish (x : Lexer) : Except Fault Lexer := do
  let x ← (x.unwind (-1)).dropCandidate
  return { x.emit .streamEnd x.cursor with keyAllowed := false, done := true }

/-- A directive, or a mark between documents: all blocks are closed before it. -/
def between (x : Lexer) (reading : Token.Reading) : Except Fault Lexer := do
  let x ← (x.unwind (-1)).dropCandidate
  let (token, after) ← reading
  return { x.emit token after with keyAllowed := false }

/-- The opening of a flow collection. -/
def openFlow (x : Lexer) (token : Token) : Except Fault Lexer := do
  let x ← x.saveCandidate
  return { x.emit token x.cursor.next with
    suspended := x.candidate :: x.suspended
    candidate := none
    keyAllowed := true }

/-- The closing of a flow collection, of which one must be open. -/
def closeFlow (x : Lexer) (token : Token) : Except Fault Lexer := do
  let x ← x.dropCandidate
  match x.suspended with
  | [] => throw .malformed
  | candidate :: rest =>
      return { x.emit token x.cursor.next with
        suspended := rest
        candidate := candidate
        keyAllowed := false }

/-- The mark between the entries of a flow collection. -/
def flowEntry (x : Lexer) : Except Fault Lexer := do
  let x ← x.dropCandidate
  return { x.emit .flowEntry x.cursor.next with keyAllowed := true }

/-- The mark of an entry of a block sequence. -/
def blockEntry (x : Lexer) : Except Fault Lexer := do
  if !x.inFlow && !x.keyAllowed then throw .malformed
  let x := if x.inFlow then x else x.openBlock x.cursor.column x.tokens.size .blockSequence
  let x ← x.dropCandidate
  return { x.emit .blockEntry x.cursor.next with keyAllowed := true }

/-- The mark of a key. -/
def keyMark (x : Lexer) : Except Fault Lexer := do
  if !x.inFlow && !x.keyAllowed then throw .malformed
  let x := if x.inFlow then x else x.openBlock x.cursor.column x.tokens.size .blockMapping
  let x ← x.dropCandidate
  return { x.emit .key x.cursor.next with keyAllowed := !x.inFlow }

/-- The mark of a value.  What could be a key before it is one now. -/
def valueMark (x : Lexer) : Except Fault Lexer := do
  match x.candidate with
  | some key =>
      let x := { x with tokens := x.tokens.insertIdxIfInBounds key.number .key, candidate := none }
      let x := if x.inFlow then x else x.openBlock key.column key.number .blockMapping
      return { x.emit .value x.cursor.next with keyAllowed := false }
  | none =>
      if !x.inFlow && !x.keyAllowed then throw .malformed
      let x := if x.inFlow then x else x.openBlock x.cursor.column x.tokens.size .blockMapping
      let x ← x.dropCandidate
      return { x.emit .value x.cursor.next with keyAllowed := !x.inFlow }

/-- A token with which a key may begin. -/
def keyOpener (x : Lexer) (reading : Token.Reading) : Except Fault Lexer := do
  let x ← x.saveCandidate
  let (token, after) ← reading
  return { x.emit token after with keyAllowed := false }

/-- A block scalar. -/
def blockScalar (x : Lexer) (folded : Bool) : Except Fault Lexer := do
  let x ← x.dropCandidate
  let (token, after) ← Block.read folded x.indent x.cursor
  return { x.emit token after with keyAllowed := true }

/-- A plain scalar; behind a line break a key is allowed again. -/
def plainScalar (x : Lexer) : Except Fault Lexer := do
  let x ← x.saveCandidate
  let (token, broke, after) := Plain.read x.inFlow (x.indent + 1) x.cursor
  return { x.emit token after with keyAllowed := broke }

/-- The characters with which no plain scalar begins. -/
def indicators : List Char := "-?:,[]\x7b\x7d#&*!|>'\"%@\x60".toList

/-- Whether a plain scalar begins here. -/
def atPlain (x : Lexer) : Bool :=
  let ch := x.cursor.peek
  !(endsWord ch || indicators.contains ch) ||
    (!endsWord (x.cursor.ahead 1) && (ch = '-' || (!x.inFlow && (ch = '?' || ch = ':'))))

/-- The token that begins here. -/
def token (x : Lexer) : Except Fault Lexer :=
  let c := x.cursor
  let ch := c.peek
  let blankAhead := endsWord (c.ahead 1)
  if ch = endMark then (match c.stop with
    | some fault => .error fault
    | none => x.finish)
  else if ch = '%' ∧ c.column = 0 then x.between (Token.readDirective c)
  else if c.column = 0 ∧ c.atMark '-' = true then x.between (.ok (.documentStart, c.skip 3))
  else if c.column = 0 ∧ c.atMark '.' = true then x.between (.ok (.documentEnd, c.skip 3))
  else if ch = '[' then x.openFlow .flowSequence
  else if ch = '\x7b' then x.openFlow .flowMapping
  else if ch = ']' then x.closeFlow .flowSequenceEnd
  else if ch = '\x7d' then x.closeFlow .flowMappingEnd
  else if ch = ',' then x.flowEntry
  else if ch = '-' ∧ blankAhead = true then x.blockEntry
  else if ch = '?' ∧ (x.inFlow || blankAhead) = true then x.keyMark
  else if ch = ':' ∧ (x.inFlow || blankAhead) = true then x.valueMark
  else if ch = '*' then x.keyOpener (Token.readName .reference c)
  else if ch = '&' then x.keyOpener (Token.readName .anchor c)
  else if ch = '!' then x.keyOpener (Token.readTag c)
  else if ch = '|' ∧ x.inFlow = false then x.blockScalar false
  else if ch = '>' ∧ x.inFlow = false then x.blockScalar true
  else if ch = '\'' then x.keyOpener (Quoted.read false c)
  else if ch = '"' then x.keyOpener (Quoted.read true c)
  else if x.atPlain then x.plainScalar
  else .error .malformed

/-- One token further.  A byte order mark at the beginning of the text is passed over. -/
def step (x : Lexer) : Except Fault Lexer := do
  let c := x.cursor
  let c := if c.index = 0 ∧ c.peek = '\uFEFF' then c.next else c
  let (c, keyAllowed) := toNextToken x.inFlow x.keyAllowed c
  let x ← { x with cursor := c, keyAllowed := keyAllowed }.dropStale
  (x.unwind c.column).token

/-- The tokens from here to the end of the text.  Where the reading stops before that, a token that
reaches as far as the stop is not complete. -/
def run (x : Lexer) : Array Token :=
  match x.step with
  | .error fault => x.cut fault
  | .ok next =>
      if next.done then next.tokens
      else match next.cursor.stop, next.cursor.rest with
        | some fault, [] => x.cut fault
        | _, _ =>
            if _h : next.cursor.rest.length < x.cursor.rest.length then next.run
            else next.tokens.push (.broken .malformed)
termination_by x.cursor.rest.length

end Lexer

/-- The tokens of a text, of which the reading may stop before its end. -/
def Token.ofText (text : List Char) (stop : Option Fault) : List Token :=
  (Lexer.start text stop).run.toList

end Mailshot.Yaml
