import TokenGrammar.Pattern.Basic
import TokenGrammar.Text.Natural
import TokenGrammar.Text.Quoted

namespace TokenGrammar

/-! Reading regular expressions.

The reader goes through the text once. It keeps a stack of open groups, each with its finished
branches and the items of the branch it is in. -/

inductive PatternError where
  | unopenedGroup
  | unclosedGroup
  | unclosedClass
  | invalidRange
  | nothingToRepeat
  | invalidCount
  | invalidEscape
  | invalidName
  | duplicateName (name : String)
  | invalidFlag
  | unsupported
deriving DecidableEq, Repr

def PatternError.message : PatternError → String
  | unopenedGroup => "unopened group"
  | unclosedGroup => "unclosed group"
  | unclosedClass => "unclosed character class"
  | invalidRange => "invalid character class range"
  | nothingToRepeat => "repetition operator missing expression"
  | invalidCount => "invalid repetition count"
  | invalidEscape => "unrecognized escape sequence"
  | invalidName => "invalid capture group name"
  | duplicateName name => "duplicate capture group name " ++ Text.quoted name
  | invalidFlag => "unrecognized flag"
  | unsupported => "unsupported syntax"

namespace Pattern

/-- How the text after a flag is read. -/
structure Flags where
  caseless : Bool := false
  dotAll : Bool := false
  multiLine : Bool := false
  lazyFirst : Bool := false
  /-- White space does not count, and neither does a comment, from a number sign to the end of its
  line. -/
  verbose : Bool := false
deriving DecidableEq, Repr

/-- The characters of a kind at the front of a text, without what does not count between them, and
the text after both. The text may begin inside a comment. -/
def readRun (flags : Flags) (kind : Char → Bool) : Bool → List Char → List Char × List Char
  | _, [] => ([], [])
  | true, c :: rest => readRun flags kind (c != '\n') rest
  | false, c :: rest =>
    if flags.verbose && Text.isSpace c then readRun flags kind false rest
    else if flags.verbose && c == '#' then readRun flags kind true rest
    else if kind c then
      let (more, rest) := readRun flags kind false rest
      (c :: more, rest)
    else ([], c :: rest)

/-- The text from the next character that counts on. -/
def Flags.skip (flags : Flags) (text : List Char) : List Char :=
  (readRun flags (fun _ => false) false text).2

/-- The next characters that count, if there are as many. -/
def readCharacters (flags : Flags) : Nat → List Char → Option (List Char × List Char)
  | 0, text => some ([], text)
  | count + 1, text =>
    match flags.skip text with
    | [] => none
    | c :: text => do
      let (more, rest) ← readCharacters flags count text
      return (c :: more, rest)

/-- What a backslash and the text after it stand for. -/
inductive Escape where
  | character (c : Char)
  | set (set : CharSet)
  | anchor (anchor : Anchor)
deriving DecidableEq, Repr

/-- The character with a code point in hexadecimal digits. -/
def hexCharacter (digits : List Char) : Except PatternError Char :=
  match Text.codePoint? digits with
  | some c => .ok c
  | none => .error .invalidEscape

/-- The characters that count up to a closing brace, and the text after it. -/
def readBraced (flags : Flags) (text : List Char) : Option (List Char × List Char) :=
  match readRun flags (· != '}') false text with
  | (taken, '}' :: rest) => some (taken, rest)
  | _ => none

/-- The characters of a code point: as many as its width, or those in braces. -/
def readCodePoint (flags : Flags) (width : Nat) (text : List Char) :
    Option (List Char × List Char) :=
  match flags.skip text with
  | '{' :: rest => readBraced flags rest
  | rest => readCharacters flags width rest

def readHex (flags : Flags) (width : Nat) (text : List Char) :
    Except PatternError (Char × List Char) :=
  match readCodePoint flags width text with
  | some (digits, rest) => return (← hexCharacter digits, rest)
  | none => .error .invalidEscape

/-- The number of digits of a code point after a letter. -/
def codePointWidth? : Char → Option Nat
  | 'x' => some 2
  | 'u' => some 4
  | 'U' => some 8
  | _ => none

/-- What a character after a backslash stands for. ASCII characters other than letters, digits and
angle brackets stand for themselves. -/
def Escape.ofCharacter? : Char → Option Escape
  | 'd' => some (.set .digit)
  | 'D' => some (.set (.complement .digit))
  | 's' => some (.set .space)
  | 'S' => some (.set (.complement .space))
  | 'w' => some (.set .word)
  | 'W' => some (.set (.complement .word))
  | 'b' => some (.anchor .wordBoundary)
  | 'B' => some (.anchor .insideWord)
  | 'A' => some (.anchor .textStart)
  | 'z' => some (.anchor .textEnd)
  | 'a' => some (.character '\x07')
  | 'f' => some (.character '\x0c')
  | 't' => some (.character '\t')
  | 'n' => some (.character '\n')
  | 'r' => some (.character '\r')
  | 'v' => some (.character '\x0b')
  | c =>
    if c.toNat < 0x80 ∧ c.isAlphanum = false ∧ c ≠ '<' ∧ c ≠ '>' then some (.character c)
    else none

/-- Reads what follows a backslash. -/
def readEscape (flags : Flags) : List Char → Except PatternError (Escape × List Char)
  | [] => .error .invalidEscape
  | c :: rest =>
    match codePointWidth? c, Escape.ofCharacter? c with
    | some width, _ => do
      let (c, rest) ← readHex flags width rest
      return (.character c, rest)
    | none, some escape => .ok (escape, rest)
    | none, none => .error .invalidEscape

/-- Reads one character or escape of a class. -/
def readClassAtom (flags : Flags) : List Char → Except PatternError (Escape × List Char)
  | [] => .error .unclosedClass
  | '\\' :: rest => readEscape flags rest
  | c :: rest => .ok (.character c, rest)

/-- The character after a hyphen, as far as it decides on a range: of a comment only the sign and
white space are passed over. -/
def characterAhead? (flags : Flags) (text : List Char) : Option Char :=
  if flags.verbose then
    match text.dropWhile Text.isSpace with
    | '#' :: rest => (rest.dropWhile Text.isSpace).head?
    | text => text.head?
  else text.head?

/-- The text after a hyphen that makes a range. -/
def afterRangeHyphen? (flags : Flags) (text : List Char) : Option (List Char) :=
  match flags.skip text with
  | '-' :: rest =>
    let ahead := characterAhead? flags rest
    if ahead = some ']' ∨ ahead = some '-' then none else some (flags.skip rest)
  | _ => none

/-- Reads a single member of a class, or a range of members. -/
def readClassMember (flags : Flags) (text : List Char) :
    Except PatternError (CharSet × List Char) := do
  let (first, rest) ← readClassAtom flags text
  match first, afterRangeHyphen? flags rest with
  | .anchor _, _ => .error .invalidEscape
  | .set set, none => return (set, rest)
  | .set _, some _ => .error .invalidRange
  | .character c, none => return (.one c, rest)
  | .character low, some text =>
    match ← readClassAtom flags text with
    | (.character high, rest) =>
      if low ≤ high then return (.range low.toNat high.toNat, rest) else .error .invalidRange
    | _ => .error .invalidRange

/-- Whether a class goes on with a class in it, or with what tells how to combine it with one. -/
def beginsClass : List Char → Bool
  | '[' :: _ => true
  | '&' :: '&' :: _ => true
  | '-' :: '-' :: _ => true
  | '~' :: '~' :: _ => true
  | _ => false

/-- Reads the members of a class up to its bracket. The first argument bounds their number. -/
def readClassMembers (flags : Flags) :
    Nat → CharSet → List Char → Except PatternError (CharSet × List Char)
  | 0, _, _ => .error .unclosedClass
  | bound + 1, set, text =>
    match flags.skip text with
    | [] => .error .unclosedClass
    | ']' :: rest => .ok (set, rest)
    | text =>
      if beginsClass text then .error .unsupported
      else do
        let (member, rest) ← readClassMember flags text
        readClassMembers flags bound (.union set member) rest

/-- Reads the sign of a negated class, if it is there. -/
def readCaret : List Char → Bool × List Char
  | '^' :: rest => (true, rest)
  | text => (false, text)

/-- Reads the members at the start of a class that stand for themselves only there: hyphens, and a
bracket that would close the class empty. -/
def readClassStart (flags : Flags) (text : List Char) : CharSet × List Char :=
  match readRun flags (· == '-') false text with
  | ([], ']' :: rest) => (.one ']', rest)
  | ([], rest) => (.none, rest)
  | (_ :: _, rest) => (.one '-', rest)

/-- Reads a class after its opening bracket. -/
def readClass (flags : Flags) (text : List Char) : Except PatternError (CharSet × List Char) := do
  let (negated, text) := readCaret (flags.skip text)
  let (start, text) := readClassStart flags text
  let (set, rest) ← readClassMembers flags (text.length + 1) start text
  let set := if flags.caseless then .caseless set else set
  return (if negated then .complement set else set, rest)

/-- Reads a number between white space. -/
def readCount (flags : Flags) (text : List Char) : Option Nat × List Char :=
  let (digits, rest) := readRun flags Char.isDigit false (text.dropWhile Text.isSpace)
  (Text.readDigits digits, rest.dropWhile Text.isSpace)

/-- Reads the upper bound of a counted repetition after its comma, if there is one. -/
def readMaximum (flags : Flags) (min : Nat) (text : List Char) :
    Except PatternError ((Nat × Option Nat) × List Char) :=
  match flags.skip text with
  | '}' :: rest => .ok ((min, none), rest)
  | text =>
    match readCount flags text with
    | (some max, '}' :: rest) =>
      if min ≤ max then .ok ((min, some max), rest) else .error .invalidCount
    | _ => .error .invalidCount

/-- Reads the bounds of a counted repetition after its opening brace. -/
def readBounds (flags : Flags) (text : List Char) :
    Except PatternError ((Nat × Option Nat) × List Char) :=
  match readCount flags text with
  | (some min, '}' :: rest) => .ok ((min, some min), rest)
  | (some min, ',' :: text) => readMaximum flags min text
  | _ => .error .invalidCount

def isNamePart (c : Char) : Bool :=
  Text.isWordCharacter c || c == '.' || c == '[' || c == ']'

def isNameStart (c : Char) : Bool := Text.isWordCharacter c && !Text.isDecimalDigit c

/-- The text from the name of a group on, behind the sign that one follows. -/
def nameAhead? : List Char → Option (List Char)
  | 'P' :: '<' :: text => some text
  | '<' :: text => some text
  | _ => none

/-- Reads the name of a group up to its bracket. -/
def readName (text : List Char) : Except PatternError (String × List Char) :=
  match text.takeWhile (· != '>'), text.dropWhile (· != '>') with
  | first :: more, _ :: rest =>
    if isNameStart first ∧ more.all isNamePart then .ok (String.ofList (first :: more), rest)
    else .error .invalidName
  | _, _ => .error .invalidName

/-- Sets one flag, or clears it. -/
def Flags.put (flags : Flags) (value : Bool) : Char → Except PatternError Flags
  | 'i' => .ok { flags with caseless := value }
  | 's' => .ok { flags with dotAll := value }
  | 'm' => .ok { flags with multiLine := value }
  | 'U' => .ok { flags with lazyFirst := value }
  | 'x' => .ok { flags with verbose := value }
  | 'u' => if value then .ok flags else .error .unsupported
  | _ => .error .invalidFlag

/-- Reads flags, each at most once. Those after a hyphen are cleared. -/
def readFlags (flags : Flags) (text : List Char) : Except PatternError Flags := do
  let (set, cleared) := (text.takeWhile (· != '-'), text.dropWhile (· != '-'))
  if text.isEmpty ∨ cleared.length = 1 ∨ ¬ text.Nodup then .error .invalidFlag
  else
    let flags ← set.foldlM (fun flags flag => flags.put true flag) flags
    cleared.tail.foldlM (fun flags flag => flags.put false flag) flags

/-- The flags of a group that need not set any. -/
def readGroupFlags (flags : Flags) (text : List Char) : Except PatternError Flags :=
  if text.isEmpty then .ok flags else readFlags flags text

/-- An open group: its name, the flags around it, its finished branches, and the items of the
branch under way, both with the last one first. -/
structure Group where
  name : Option String
  outer : Flags
  branches : List Pattern
  items : List Pattern
deriving DecidableEq, Repr

namespace Group

def opened (name : Option String) (outer : Flags) : Group := ⟨name, outer, [], []⟩

def push (group : Group) (item : Pattern) : Group := { group with items := item :: group.items }

def endBranch (group : Group) : Group :=
  { group with branches := chain group.items.reverse :: group.branches, items := [] }

def pattern (group : Group) : Pattern :=
  let body := choice group.endBranch.branches.reverse
  group.name.elim body (named · body)

end Group

/-- Reads a question mark in the text ahead, or nothing of a text. -/
def readMark (ahead text : List Char) : Bool × List Char :=
  match ahead with
  | '?' :: rest => (true, rest)
  | _ => (false, text)

/-- Where the reader stands: the group it is in, the groups around that one, the flags, the names
so far, and whether the last item may be repeated. -/
structure Reader where
  group : Group
  around : List Group
  flags : Flags
  names : List String
  repeatable : Bool
deriving DecidableEq, Repr

namespace Reader

def start : Reader := ⟨.opened none {}, [], {}, [], false⟩

def push (reader : Reader) (item : Pattern) : Reader :=
  { reader with group := reader.group.push item, repeatable := true }

def literal (reader : Reader) (c : Char) : Reader :=
  reader.push (.one (if reader.flags.caseless then .caseless (.one c) else .one c))

def openGroup (reader : Reader) (name : Option String) (flags : Flags) : Reader :=
  { reader with
    group := .opened name reader.flags
    around := reader.group :: reader.around
    flags
    repeatable := false }

def openNamed (reader : Reader) (name : String) : Except PatternError Reader :=
  if name ∈ reader.names then .error (.duplicateName name)
  else .ok { reader.openGroup (some name) reader.flags with names := name :: reader.names }

def closeGroup (reader : Reader) : Except PatternError Reader :=
  match reader.around with
  | [] => .error .unopenedGroup
  | outer :: around => .ok
    { reader with
      group := outer.push reader.group.pattern
      around
      flags := reader.group.outer
      repeatable := true }

def endBranch (reader : Reader) : Reader :=
  { reader with group := reader.group.endBranch, repeatable := false }

/-- Repeats the last item. A mark after the operator swaps its preference. -/
def repeatLast (reader : Reader) (min : Nat) (max : Option Nat) (mark : Bool × List Char) :
    Except PatternError (Reader × List Char) :=
  match reader.repeatable, reader.group.items with
  | true, item :: items =>
    let greedy := mark.1 == reader.flags.lazyFirst
    .ok ({ reader with
      group := { reader.group with items := .repeated greedy min max item :: items } }, mark.2)
  | _, _ => .error .nothingToRepeat

/-- Reads flags, which are set for the group that follows or for what is left of the group around
them. -/
def flagged (reader : Reader) (text : List Char) : Except PatternError (Reader × List Char) :=
  let flagText := text.takeWhile fun c => c != ':' && c != ')'
  match text.dropWhile fun c => c != ':' && c != ')' with
  | ':' :: rest => do
    let flags ← readGroupFlags reader.flags flagText
    return (reader.openGroup none flags, rest)
  | ')' :: rest => do
    let flags ← readFlags reader.flags flagText
    return ({ reader with flags, repeatable := false }, rest)
  | _ => .error .unclosedGroup

/-- Reads what follows a parenthesis and a question mark. -/
def special (reader : Reader) (text : List Char) : Except PatternError (Reader × List Char) :=
  match nameAhead? text with
  | some text => do
    let (name, rest) ← readName text
    return (← reader.openNamed name, rest)
  | none => reader.flagged text

/-- Reads one item or operator that begins a text. -/
def readItem (reader : Reader) : List Char → Except PatternError (Reader × List Char)
  | [] => .ok (reader, [])
  | '(' :: rest =>
    match reader.flags.skip rest with
    | '?' :: rest => reader.special rest
    | _ => .ok (reader.openGroup none reader.flags, rest)
  | ')' :: rest => return (← reader.closeGroup, rest)
  | '|' :: rest => .ok (reader.endBranch, rest)
  | '*' :: rest => reader.repeatLast 0 none (readMark rest rest)
  | '+' :: rest => reader.repeatLast 1 none (readMark rest rest)
  | '?' :: rest => reader.repeatLast 0 (some 1) (readMark rest rest)
  | '{' :: rest =>
    if reader.repeatable then do
      let ((min, max), rest) ← readBounds reader.flags rest
      reader.repeatLast min max (readMark (reader.flags.skip rest) rest)
    else .error .nothingToRepeat
  | '[' :: rest => do
    let (set, rest) ← readClass reader.flags rest
    return (reader.push (.one set), rest)
  | '.' :: rest =>
    .ok (reader.push (.one (if reader.flags.dotAll then .any else .complement (.one '\n'))), rest)
  | '^' :: rest =>
    .ok (reader.push (.anchor (if reader.flags.multiLine then .lineStart else .textStart)), rest)
  | '$' :: rest =>
    .ok (reader.push (.anchor (if reader.flags.multiLine then .lineEnd else .textEnd)), rest)
  | '\\' :: rest => do
    match ← readEscape reader.flags rest with
    | (.character c, rest) => return (reader.literal c, rest)
    | (.set set, rest) => return (reader.push (.one set), rest)
    | (.anchor condition, rest) => return (reader.push (.anchor condition), rest)
  | c :: rest => .ok (reader.literal c, rest)

/-- Reads the next item or operator that counts. -/
def step (reader : Reader) (text : List Char) : Except PatternError (Reader × List Char) :=
  reader.readItem (reader.flags.skip text)

/-- Reads a text to its end. Each step takes a character at least, so the length of the text
bounds the steps. -/
def run : Nat → Reader → List Char → Except PatternError Reader
  | _, reader, [] => .ok reader
  | 0, _, _ => .error .unsupported
  | steps + 1, reader, text => do
    let (reader, rest) ← reader.step text
    run steps reader rest

def finish (reader : Reader) : Except PatternError Pattern :=
  if reader.around.isEmpty then .ok reader.group.pattern else .error .unclosedGroup

end Reader

/-- Reads a regular expression. -/
def ofText (text : List Char) : Except PatternError Pattern := do
  (← Reader.start.run text.length text).finish

end Pattern
end TokenGrammar
