import Conceal.Number.Notation
import Conceal.Regex.Match
import Conceal.Regex.Token
import Conceal.Unicode.Identifier

/-!
Reading patterns. Flags for the whole pattern stand at its start, so every part can be given the
flags that govern it as it is read. The width of each part is kept, because what looks back must
have one width.
-/

namespace Conceal.Regex

/-- Why a text is not a pattern. -/
inductive Fault where
  /-- The text breaks the rules for patterns. -/
  | malformed
  /-- A number of repetitions is beyond the largest allowed. -/
  | repetitionTooLarge
  /-- A number of repetitions has too many digits. -/
  | repetitionTooLong
  /-- Both kinds of character classes are asked for. -/
  | classesConflict
deriving DecidableEq, Repr

/-- The switches of a pattern or of a part of it. -/
structure Flags where
  ignoreCase : Bool := false
  multiline : Bool := false
  dotAll : Bool := false
  verbose : Bool := false
  ascii : Bool := false
  unicode : Bool := false
deriving DecidableEq, Repr

namespace Flags

/-- Switches on all that either set has on. -/
def union (a b : Flags) : Flags where
  ignoreCase := a.ignoreCase || b.ignoreCase
  multiline := a.multiline || b.multiline
  dotAll := a.dotAll || b.dotAll
  verbose := a.verbose || b.verbose
  ascii := a.ascii || b.ascii
  unicode := a.unicode || b.unicode

/-- Switches off all that the second set has on. -/
def without (a b : Flags) : Flags where
  ignoreCase := a.ignoreCase && !b.ignoreCase
  multiline := a.multiline && !b.multiline
  dotAll := a.dotAll && !b.dotAll
  verbose := a.verbose && !b.verbose
  ascii := a.ascii && !b.ascii
  unicode := a.unicode && !b.unicode

/-- Does the set choose the kind of character classes? -/
def choosesClasses (f : Flags) : Bool := f.ascii || f.unicode

/-- Is no switch on? -/
def isEmpty (f : Flags) : Bool := f == {}

/-- Do the sets share a switch? -/
def meets (a b : Flags) : Bool := a.without b != a

/-- The switches inside a group that adds some and removes others. -/
def combine (outer add remove : Flags) : Flags :=
  let base := if add.choosesClasses then { outer with ascii := false, unicode := false } else outer
  (base.union add).without remove

/-- How characters are read under the switches. -/
def reading (f : Flags) : Reading := ⟨f.ignoreCase, f.ascii⟩

/-- The switch of a letter. -/
def ofLetter? (c : Nat) : Option Flags :=
  match Char.ofNat c with
  | 'i' => some { ignoreCase := true }
  | 'm' => some { multiline := true }
  | 's' => some { dotAll := true }
  | 'x' => some { verbose := true }
  | 'a' => some { ascii := true }
  | 'u' => some { unicode := true }
  | _ => none

end Flags

/-- How many characters a part can take up; no `max` means that there is no bound. -/
structure Width where
  min : Nat
  max : Option Nat
deriving DecidableEq, Repr

namespace Width

/-- The width of a part that takes up nothing. -/
def zero : Width := ⟨0, some 0⟩

/-- One part after another. -/
def add (a b : Width) : Width :=
  ⟨a.min + b.min, match a.max, b.max with
    | some x, some y => some (x + y)
    | _, _ => none⟩

/-- Either of two parts. -/
def join (a b : Width) : Width :=
  ⟨Nat.min a.min b.min, match a.max, b.max with
    | some x, some y => some (Nat.max x y)
    | _, _ => none⟩

/-- A repeated part. -/
def times (w : Width) (min : Nat) (max : Option Nat) : Width :=
  ⟨w.min * min, match w.max, max with
    | some 0, _ => some 0
    | some x, some n => some (x * n)
    | none, some 0 => some 0
    | _, _ => none⟩

/-- The largest number of repetitions, and of characters to look back. -/
def limit : Nat := 4294967295

/-- The one width, if there is only one and it can be looked back over. -/
def fixed? (w : Width) : Option Nat :=
  if w.max = some w.min ∧ w.min ≤ limit then some w.min else none

end Width

/-- What a piece of a pattern is, as far as repeating it goes. -/
inductive PieceKind where
  | anchor
  | loop
  | other
deriving DecidableEq, Repr

/-- A part of a pattern that has been read. -/
structure Piece where
  node : Node
  width : Width
  kind : PieceKind := .other
deriving Repr

/-- Puts pieces, last first, one after another. -/
def Piece.sequence (pieces : List Piece) : Piece :=
  match pieces with
  | [] => ⟨.empty, .zero, .other⟩
  | last :: earlier =>
    earlier.foldl (fun acc p => ⟨.seq p.node acc.node, p.width.add acc.width, .other⟩)
      { last with kind := .other }

/-- What the reader of a pattern keeps track of. -/
structure Reader where
  /-- What is left to read. -/
  rest : List Token
  /-- The switches of the whole pattern. -/
  flags : Flags
  /-- The widths of groups by number; a group that is still open has none. -/
  groups : Array (Option Width)
  /-- The numbers of named groups. -/
  names : List (List Nat × Nat) := []
  /-- How many groups there were where the outermost look back began. -/
  lookingBack : Option Nat := none
  /-- Groups that are asked for by number before it is known whether they exist. -/
  asked : List Nat := []
  /-- Does every look back have one width? -/
  fixedWidths : Bool := true

/-- Reading a part of a pattern. -/
abbrev Read (α : Type) := StateT Reader (Except Fault) α

namespace Read

/-- Refuses the pattern. -/
def fail {α : Type} : Read α := throw Fault.malformed

/-- The next token, left in place. -/
def peek : Read (Option Token) := do
  return (← get).rest.head?

/-- Drops the next token. -/
def advance : Read Unit := modify fun s => { s with rest := s.rest.drop 1 }

/-- Takes the next token. -/
def next? : Read (Option Token) := do
  let t ← peek
  advance
  return t

/-- Takes the next token; there has to be one. -/
def next : Read Token := do
  match ← next? with
  | some t => return t
  | none => fail

/-- Takes the next token if it is the given character. -/
def accept (c : Char) : Read Bool := do
  match ← peek with
  | some t =>
    if t.isPlain c then
      advance
      return true
    else return false
  | none => return false

/-- Takes the given character; it has to come next. -/
def expect (c : Char) : Read Unit := do
  if ← accept c then return () else fail

/-- Takes at most `n` characters of a class. -/
def takeUpTo (holds : Nat → Bool) : Nat → Read (List Nat)
  | 0 => return []
  | n + 1 => do
    match ← peek with
    | some (.plain c) =>
      if holds c then
        advance
        return c :: (← takeUpTo holds n)
      else return []
    | _ => return []

/-- The text up to a closing character, which is taken too; it must not be empty. -/
def takeUntil (close : Char) : Read (List Nat) := do
  let ts := (← get).rest
  let body := ts.takeWhile fun t => !t.isPlain close
  if body.isEmpty || body.length == ts.length then fail
  else
    set { (← get) with rest := ts.drop (body.length + 1) }
    return body.flatMap Token.text

/-! ## Escapes -/

/-- The value of a hexadecimal digit. -/
def hexValue? (c : Nat) : Option Nat :=
  if 48 ≤ c ∧ c ≤ 57 then some (c - 48)
  else if 97 ≤ c ∧ c ≤ 102 then some (c - 87)
  else if 65 ≤ c ∧ c ≤ 70 then some (c - 55)
  else none

/-- Is the character an octal digit? -/
def isOctal (c : Nat) : Bool := 48 ≤ c && c ≤ 55

/-- Is the character an ASCII digit? -/
def isDigit (c : Nat) : Bool := 48 ≤ c && c ≤ 57

/-- Is the character an ASCII letter? -/
def isLetter (c : Nat) : Bool := (65 ≤ c && c ≤ 90) || (97 ≤ c && c ≤ 122)

/-- Exactly `count` hexadecimal digits. -/
def hexadecimal (count : Nat) : Read Nat := do
  let ds ← takeUpTo (fun c => (hexValue? c).isSome) count
  if ds.length = count then return ds.foldl (fun n c => 16 * n + (hexValue? c).getD 0) 0 else fail

/-- The number that octal digits write. -/
def octalValue (ds : List Nat) : Nat := ds.foldl (fun n c => 8 * n + (c - 48)) 0

/-- The character of a letter escape that means one character everywhere. -/
def controlEscape? (c : Nat) : Option Nat :=
  match Char.ofNat c with
  | 'a' => some 7
  | 'f' => some 12
  | 'n' => some 10
  | 'r' => some 13
  | 't' => some 9
  | 'v' => some 11
  | '\\' => some 92
  | _ => none

/-- The class of a letter escape. -/
def classEscape? (c : Nat) : Option SetItem :=
  match Char.ofNat c with
  | 'd' => some (.ofClass .digit false)
  | 'D' => some (.ofClass .digit true)
  | 's' => some (.ofClass .blank false)
  | 'S' => some (.ofClass .blank true)
  | 'w' => some (.ofClass .word false)
  | 'W' => some (.ofClass .word true)
  | _ => none

/-- The anchor of a letter escape. -/
def anchorEscape? (ascii : Bool) (c : Nat) : Option Anchor :=
  match Char.ofNat c with
  | 'A' => some .textStart
  | 'Z' => some .textEnd
  | 'b' => some (.wordBoundary ascii)
  | 'B' => some (.notWordBoundary ascii)
  | _ => none

/-- The character of an escape by number in hexadecimal, if the letter starts one. -/
def hexEscape? (c : Nat) : Option (Read Nat) :=
  match Char.ofNat c with
  | 'x' => some (hexadecimal 2)
  | 'u' => some (hexadecimal 4)
  | 'U' => some do
    let n ← hexadecimal 8
    if n ≤ 0x10ffff then return n else fail
  | _ => none

/-- A part of a set written as an escape. Characters cannot be written by their names here. -/
def setEscape (c : Nat) : Read SetItem := do
  if c = 98 then return .single 8
  match controlEscape? c, classEscape? c, hexEscape? c with
  | some d, _, _ => return .single d
  | none, some item, _ => return item
  | none, none, some read => return .single (← read)
  | none, none, none =>
    if isOctal c then
      let n := octalValue (c :: (← takeUpTo isOctal 2))
      if n > 255 then fail else return .single n
    else if isDigit c || isLetter c then fail
    else return .single c

/-- One character as a piece. -/
def onePiece (test : CharTest) (flags : Flags) : Piece :=
  ⟨.one test flags.reading, ⟨1, some 1⟩, .other⟩

/-- A character that stands for itself. -/
def literalPiece (c : Nat) (flags : Flags) : Piece := onePiece (.literal c false) flags

/-- May a group be referred to from where the reader stands? Its end must have been read, and a look
back does not refer to groups of its own. -/
def checkLookingBack (group : Nat) : Read Unit := do
  let s ← get
  match s.lookingBack with
  | none => return ()
  | some limit =>
    match s.groups[group]? with
    | some (some _) => if group ≥ limit then fail else return ()
    | _ => fail

/-- The text of a group once more. -/
def referTo (group : Nat) (flags : Flags) : Read Piece := do
  match (← get).groups[group]? with
  | some (some width) =>
    checkLookingBack group
    return ⟨.backReference group flags.reading, width, .other⟩
  | _ => fail

/-- A reference to a group by number, or a character by three octal digits; the first digit has been
taken. -/
def numericEscape (c : Nat) (flags : Flags) : Read Piece := do
  if c = 48 then return literalPiece (octalValue (← takeUpTo isOctal 2)) flags
  match ← peek with
  | some (.plain d) =>
    if isDigit d then
      advance
      if isOctal c && isOctal d then
        match ← takeUpTo isOctal 1 with
        | [e] =>
          let n := octalValue [c, d, e]
          if n > 255 then fail else return literalPiece n flags
        | _ => referTo (10 * (c - 48) + (d - 48)) flags
      else referTo (10 * (c - 48) + (d - 48)) flags
    else referTo (c - 48) flags
  | _ => referTo (c - 48) flags

/-- An escape outside of sets. `N` with a character's name in braces is refused as an escape that is
not known: there is no table of names here. -/
def escapePiece (c : Nat) (flags : Flags) : Read Piece := do
  match anchorEscape? flags.ascii c, classEscape? c, controlEscape? c, hexEscape? c with
  | some a, _, _, _ => return ⟨.anchor a, .zero, .anchor⟩
  | none, some item, _, _ => return onePiece (.set [item] false) flags
  | none, none, some d, _ => return literalPiece d flags
  | none, none, none, some read => return literalPiece (← read) flags
  | none, none, none, none =>
    if isDigit c then numericEscape c flags
    else if isLetter c then fail
    else return literalPiece c flags

/-! ## Sets -/

/-- An end of a range, or a single part of a set. -/
def setItem (t : Token) : Read SetItem :=
  match t with
  | .plain c => return .single c
  | .escaped c => setEscape c
  | .dangling => fail

/-- The parts of a set up to the closing bracket; `acc` holds the earlier ones, last first. -/
def setItems : Nat → List SetItem → Read (List SetItem)
  | 0, _ => fail
  | fuel + 1, acc => do
    let t ← next
    if t.isPlain ']' && !acc.isEmpty then return acc.reverse
    let first ← setItem t
    if ← accept '-' then
      let u ← next
      if u.isPlain ']' then return (SetItem.single 45 :: first :: acc).reverse
      match first, ← setItem u with
      | .single lo, .single hi => if hi < lo then fail else setItems fuel (.range lo hi :: acc)
      | _, _ => fail
    else setItems fuel (first :: acc)

/-- A set, after its opening bracket. A set of one character is that character. -/
def setPiece (flags : Flags) : Read Piece := do
  let negated ← accept '^'
  let items ← setItems ((← get).rest.length + 1) []
  match items.eraseDups with
  | [.single c] => return onePiece (.literal c negated) flags
  | distinct => return onePiece (.set distinct negated) flags

/-! ## Repetitions -/

/-- A number of repetitions; no digits give none. -/
def repetitions? (ds : List Nat) : Read (Option Nat) := do
  if ds.isEmpty then return none
  if ds.length > Number.maxDigits then throw .repetitionTooLong
  let n := Number.digitsValue (ds.map (· - 48))
  if n ≥ Width.limit then throw .repetitionTooLarge
  return some n

/-- The bounds in braces, after the opening one; `none` when these are no bounds and the brace
stands for itself. -/
def bracedBounds? : Read (Option (Nat × Option Nat)) := do
  let saved ← get
  if saved.rest.head?.any (·.isPlain '\x7d') then return none
  let lows ← takeUpTo isDigit saved.rest.length
  let highs ← if ← accept ',' then takeUpTo isDigit saved.rest.length else pure lows
  if ← accept '\x7d' then
    if (← get).rest == [.dangling] then fail
    let low ← repetitions? lows
    let high ← repetitions? highs
    let min := low.getD 0
    match high with
    | some max => if max < min then fail else return some (min, some max)
    | none => return some (min, none)
  else
    set saved
    return none

/-- The bounds that a quantifier gives; its first character has been taken. -/
def bounds? (c : Nat) : Read (Option (Nat × Option Nat)) :=
  match Char.ofNat c with
  | '?' => return some (0, some 1)
  | '*' => return some (0, none)
  | '+' => return some (1, none)
  | _ => bracedBounds?

/-- Repeats the last piece. -/
def repeatLast (min : Nat) (max : Option Nat) : List Piece → Read (List Piece)
  | [] => fail
  | last :: earlier => do
    if last.kind != .other then fail
    let greed ← do
      if ← accept '?' then pure Greed.lazy
      else if ← accept '+' then pure Greed.possessive
      else pure Greed.greedy
    return ⟨.loop greed min max last.node, last.width.times min max, .loop⟩ :: earlier

/-! ## Groups -/

/-- The switches that a group adds and removes. -/
inductive GroupFlags where
  /-- They hold for the whole pattern. -/
  | whole (add : Flags)
  /-- They hold for a group that follows. -/
  | inside (add remove : Flags)

/-- Switches to remove, after the minus. -/
def removedFlags (add : Flags) : Nat → Flags → Read GroupFlags
  | 0, _ => fail
  | fuel + 1, acc => do
    match ← next with
    | .plain c =>
      if c = 58 ∧ !acc.isEmpty then
        if add.meets acc then fail else return .inside add acc
      match Flags.ofLetter? c with
      | some f => if f.choosesClasses then fail else removedFlags add fuel (acc.union f)
      | none => fail
    | _ => fail

/-- Switches to add, from the letter `c` on, up to what ends them. -/
def addedFlags : Nat → Nat → Flags → Read GroupFlags
  | 0, _, _ => fail
  | fuel + 1, c, acc => do
    match Flags.ofLetter? c with
    | none => fail
    | some f =>
      let add := acc.union f
      if f.choosesClasses && add.ascii && add.unicode then fail
      match ← next with
      | .plain d =>
        match Char.ofNat d with
        | ')' => return .whole add
        | ':' => return .inside add {}
        | '-' => removedFlags add (fuel + 1) {}
        | _ => addedFlags fuel d add
      | _ => fail

/-- Gives a new group its number and its name. -/
def openGroup (name : Option (List Nat)) : Read Nat := do
  let s ← get
  let number := s.groups.size
  match name with
  | none =>
    set { s with groups := s.groups.push none }
    return number
  | some n =>
    if (s.names.lookup n).isSome then fail
    set { s with groups := s.groups.push none, names := (n, number) :: s.names }
    return number

/-- Notes the width of a group that has been read. -/
def closeGroup (number : Nat) (width : Width) : Read Unit :=
  modify fun s => { s with groups := s.groups.setIfInBounds number (some width) }

/-- The name of a group up to a closing character. -/
def groupName (close : Char) : Read (List Nat) := do
  let name ← takeUntil close
  if Unicode.isIdentifier name then return name else fail

/-- The group that a condition asks about, by name or by number. -/
def askedGroup : Read Nat := do
  let name ← takeUntil ')'
  let s ← get
  if Unicode.isIdentifier name then
    match s.names.lookup name with
    | some number => return number
    | none => fail
  else
    match Number.readInteger (String.ofList (name.map Char.ofNat)) with
    | some (.ofNat (n + 1)) =>
      if n + 1 ≥ 1073741823 then fail
      set { s with asked := (n + 1) :: s.asked }
      return n + 1
    | _ => fail

/-- What a bracket opens. -/
inductive Opening where
  /-- Nothing that matches: a comment, or switches for the whole pattern. -/
  | nothing
  /-- A reference to a named group. -/
  | reference (name : List Nat)
  | capture (name : Option (List Nat))
  | plain (add remove : Flags)
  | atomic
  | look (back negated : Bool)
  | condition (group : Nat)

/-- Drops a comment, closing bracket included. -/
def skipComment : Read Unit := do
  let ts := (← get).rest
  let rest := ts.dropWhile fun t => !t.isPlain ')'
  if rest.isEmpty then fail else set { (← get) with rest := rest.drop 1 }

/-- What a bracket opens; the bracket has been taken. Switches for the whole pattern must come
first: `atStart` says whether they may still come. -/
def opening (atStart : Bool) : Read Opening := do
  if !(← accept '?') then return .capture none
  match ← next with
  | .plain c =>
    match Char.ofNat c with
    | 'P' =>
      if ← accept '<' then return .capture (some (← groupName '>'))
      else if ← accept '=' then return .reference (← groupName ')')
      else fail
    | ':' => return .plain {} {}
    | '#' =>
      skipComment
      return .nothing
    | '=' => return .look false false
    | '!' => return .look false true
    | '<' =>
      if ← accept '=' then return .look true false
      else if ← accept '!' then return .look true true
      else fail
    | '(' =>
      let group ← askedGroup
      checkLookingBack group
      return .condition group
    | '>' => return .atomic
    | _ =>
      let fuel := (← get).rest.length + 1
      let found ← if c = 45 then removedFlags {} fuel {} else addedFlags fuel c {}
      match found with
      | .whole add =>
        if atStart then
          modify fun s => { s with flags := s.flags.union add }
          return .nothing
        else fail
      | .inside add remove => return .plain add remove
  | _ => fail

/-- Drops a comment of a verbose pattern, up to the end of its line. -/
def skipLine : Read Unit :=
  modify fun s => { s with rest := (s.rest.dropWhile fun t => !t.isPlain '\n').drop 1 }

/-- Blanks that a verbose pattern may hold between its parts. -/
def isVerboseBlank (c : Nat) : Bool := (9 ≤ c && c ≤ 13) || c == 32

/-- Characters that begin a quantifier. -/
def isQuantifier (c : Nat) : Bool := c == 42 || c == 43 || c == 63 || c == 123

/-- A look at what follows or at what stands before. -/
def lookPiece (back negated : Bool) (body : Piece) : Read Piece := do
  if back then
    match body.width.fixed? with
    | some n => return ⟨.look (some n) negated body.node, .zero, .other⟩
    | none =>
      modify fun s => { s with fixedWidths := false }
      return ⟨.look (some 0) negated body.node, .zero, .other⟩
  else return ⟨.look none negated body.node, .zero, .other⟩

mutual

/-- Alternatives up to a closing bracket or the end; `top` says that they are the whole pattern. -/
def alternatives : Nat → Bool → Flags → Read Piece
  | 0, _, _ => fail
  | fuel + 1, top, flags => do
    let first ← pieces fuel top flags []
    moreAlternatives fuel top flags first

/-- The alternatives after the first ones. Alternatives of one character each stay alternatives;
they are not made one set. -/
def moreAlternatives : Nat → Bool → Flags → Piece → Read Piece
  | 0, _, _, _ => fail
  | fuel + 1, top, flags, before => do
    if ← accept '|' then
      let whole := (← get).flags
      let inner := if top then whole else flags
      let other ← pieces fuel false inner []
      let both ← moreAlternatives fuel top flags other
      return ⟨.alt before.node both.node, before.width.join both.width, .other⟩
    else return before

/-- A sequence of pieces up to a bar, a closing bracket or the end; `acc` holds the earlier ones,
last first. -/
def pieces : Nat → Bool → Flags → List Piece → Read Piece
  | 0, _, _, _ => fail
  | fuel + 1, atStart, flags, acc => do
    match ← peek with
    | none => return Piece.sequence acc
    | some .dangling => fail
    | some (.escaped c) =>
      advance
      let p ← escapePiece c flags
      pieces fuel atStart flags (p :: acc)
    | some (.plain c) =>
      if c = 124 ∨ c = 41 then return Piece.sequence acc
      advance
      if flags.verbose && isVerboseBlank c then pieces fuel atStart flags acc
      else if flags.verbose && c == 35 then
        skipLine
        pieces fuel atStart flags acc
      else if isQuantifier c then
        match ← bounds? c with
        | some (min, max) => pieces fuel atStart flags (← repeatLast min max acc)
        | none => pieces fuel atStart flags (literalPiece c flags :: acc)
      else
        match Char.ofNat c with
        | '.' =>
          let test := if flags.dotAll then CharTest.any else .notLineFeed
          pieces fuel atStart flags (onePiece test flags :: acc)
        | '^' =>
          let a := if flags.multiline then Anchor.lineStart else .textStart
          pieces fuel atStart flags (⟨.anchor a, .zero, .anchor⟩ :: acc)
        | '$' =>
          let a := if flags.multiline then Anchor.lineEnd else .textEndOrFinalLineFeed
          pieces fuel atStart flags (⟨.anchor a, .zero, .anchor⟩ :: acc)
        | '[' => pieces fuel atStart flags ((← setPiece flags) :: acc)
        | '(' =>
          match ← group fuel (atStart && acc.isEmpty) flags with
          | some p => pieces fuel atStart flags (p :: acc)
          | none =>
            let whole := (← get).flags
            pieces fuel atStart (if atStart then whole else flags) acc
        | _ => pieces fuel atStart flags (literalPiece c flags :: acc)

/-- A group, after its opening bracket; `none` for what matches nothing. -/
def group : Nat → Bool → Flags → Read (Option Piece)
  | 0, _, _ => fail
  | fuel + 1, atStart, flags => do
    match ← opening atStart with
    | .nothing => return none
    | .reference name =>
      match (← get).names.lookup name with
      | some number => return some (← referTo number flags)
      | none => fail
    | .capture name =>
      let number ← openGroup name
      let body ← alternatives fuel false flags
      expect ')'
      closeGroup number body.width
      return some ⟨.group number body.node, body.width, .other⟩
    | .plain add remove =>
      let body ← alternatives fuel false (flags.combine add remove)
      expect ')'
      return some { body with kind := .other }
    | .atomic =>
      let body ← alternatives fuel false flags
      expect ')'
      return some ⟨.atomic body.node, body.width, .other⟩
    | .look back negated =>
      let before := (← get).lookingBack
      if back then
        modify fun s => { s with lookingBack := some (before.getD s.groups.size) }
      let body ← alternatives fuel false flags
      if back then modify fun s => { s with lookingBack := before }
      expect ')'
      return some (← lookPiece back negated body)
    | .condition number =>
      let yes ← pieces fuel false flags []
      if ← accept '|' then
        let no ← pieces fuel false flags []
        expect ')'
        return some ⟨.ifGroup number yes.node no.node, yes.width.join no.width, .other⟩
      else
        expect ')'
        return some ⟨.ifGroup number yes.node .empty, yes.width.join .zero, .other⟩

end

end Read

/-- Reads a pattern. -/
def compile (source : String) (flags : Flags := {}) : Except Fault Regex := do
  let ts := tokens source.toList
  let start : Reader := { rest := ts, flags, groups := #[some .zero] }
  let (piece, s) ← (Read.alternatives (4 * ts.length + 4) true flags).run start
  if s.flags.ascii && s.flags.unicode then throw .classesConflict
  if !s.rest.isEmpty then throw .malformed
  if s.asked.any (· ≥ s.groups.size) || !s.fixedWidths then throw .malformed
  return ⟨piece.node, s.groups.size - 1⟩

end Conceal.Regex
