import MongoBouncer.GoStd.Strings

/-!
# Go regular expressions

Model of `regexp.MatchString`, `regexp.MustCompile` and `Regexp.FindString`: the syntax of package
`regexp/syntax` under the flags of `regexp.Compile`, and leftmost-first matching over the runes of
a string.

* `Regexp`, `Regexp.ends` : expressions, and where a match that begins at a cursor may end, the
  preferred end first;
* `Regexp.step`, `Regexp.compile` : the parser, which reads one piece of a pattern at a time;
* `Regexp.findString`, `matchString`.

Two things are left out: the classes `\p` and `\P` of Unicode tables, whose names all have a capital
letter (the patterns of a configuration are read in lower case), and the limits on the depth and the
size of a parsed expression.
-/

namespace GoStd

namespace Regexp

/-- A part of a class: ranges of code points. It is `folded` if it also has the runes that differ from
one of these in case only, and `negated` if it has the runes outside. -/
structure ClassItem where
  ranges : List (Nat × Nat)
  folded : Bool
  negated : Bool
  deriving DecidableEq, Repr

/-- Conditions on a place in a text. -/
inductive Anchor where
  | beginText
  | endText
  | beginLine
  | endLine
  | wordBoundary
  | noWordBoundary
  deriving DecidableEq, Repr

end Regexp

inductive Regexp where
  | empty
  | oneOf (items : List Regexp.ClassItem) (negated : Bool)
  | anchor (a : Regexp.Anchor)
  | cat (a b : Regexp)
  | alt (a b : Regexp)
  | star (greedy : Bool) (a : Regexp)
  | counted (min : Nat) (max : Option Nat) (greedy : Bool) (a : Regexp)
  deriving DecidableEq, Repr

namespace Regexp

/-! ## Matching -/

/-- A place in a text: the runes before it, last one first, and the runes after it. -/
structure Cursor where
  before : List Char
  rest : List (Char × GoString)

/-- The runes of `\w`. -/
def isWord (c : Char) : Bool := c.isAlphanum || c == '_'

/-- One of the ranges has the code point. -/
def inRanges (ranges : List (Nat × Nat)) (n : Nat) : Bool :=
  ranges.any fun r => decide (r.1 ≤ n) && decide (n ≤ r.2)

/-- One of the ranges has a code point that differs in case only. -/
def inFolded (ranges : List (Nat × Nat)) (n : Nat) : Bool :=
  ranges.any fun r => (List.range' r.1 (r.2 + 1 - r.1)).any fun m => foldCode m == foldCode n

/-- The part of a class has the rune. -/
def ClassItem.has (i : ClassItem) (c : Char) : Bool :=
  (if i.folded then inFolded i.ranges c.toNat else inRanges i.ranges c.toNat) != i.negated

/-- A class takes the rune. -/
def takes (items : List ClassItem) (negated : Bool) (c : Char) : Bool :=
  items.any (·.has c) != negated

/-- Exactly one of the runes around the cursor is a word character. -/
def Cursor.atWordBoundary (c : Cursor) : Bool :=
  c.before.head?.any isWord != (c.rest.head?.map Prod.fst).any isWord

/-- The condition holds at the cursor. -/
def Anchor.holds : Anchor → Cursor → Bool
  | beginText, c => c.before.isEmpty
  | endText, c => c.rest.isEmpty
  | beginLine, c => c.before.head?.all (· == '\n')
  | endLine, c => c.rest.head?.all (·.1 == '\n')
  | wordBoundary, c => c.atWordBoundary
  | noWordBoundary, c => !c.atWordBoundary

/-- Where a repetition may end, for a body that ends as `step` says. An iteration that consumes
nothing is the last one, so the number of runes left bounds the iterations. -/
def starEnds (greedy : Bool) (step : Cursor → List Cursor) : Nat → Cursor → List Cursor
  | 0, c => [c]
  | n + 1, c =>
    let more := (step c).flatMap fun e =>
      if e.rest.length < c.rest.length then starEnds greedy step n e else [e]
    if greedy then more ++ [c] else c :: more

/-- Where `n` iterations may end. -/
def timesEnds (step : Cursor → List Cursor) : Nat → Cursor → List Cursor
  | 0, c => [c]
  | n + 1, c => (step c).flatMap (timesEnds step n)

/-- Where up to `n` iterations may end. -/
def upToEnds (greedy : Bool) (step : Cursor → List Cursor) : Nat → Cursor → List Cursor
  | 0, c => [c]
  | n + 1, c =>
    let more := (step c).flatMap (upToEnds greedy step n)
    if greedy then more ++ [c] else c :: more

/-- Where a match that begins at the cursor may end, in order of preference. -/
def ends : Regexp → Cursor → List Cursor
  | empty, c => [c]
  | oneOf items negated, c =>
    match c.rest with
    | [] => []
    | p :: rest => if takes items negated p.1 then [⟨p.1 :: c.before, rest⟩] else []
  | anchor a, c => if a.holds c then [c] else []
  | cat a b, c => (ends a c).flatMap (ends b)
  | alt a b, c => ends a c ++ ends b c
  | star greedy a, c => starEnds greedy (ends a) c.rest.length c
  | counted min max greedy a, c =>
    (timesEnds (ends a) min c).flatMap fun e =>
      match max with
      | none => starEnds greedy (ends a) e.rest.length e
      | some m => upToEnds greedy (ends a) (m - min) e

/-- The text of the leftmost match, the preferred one where several begin there. -/
def findFrom (r : Regexp) (before : List Char) : List (Char × GoString) → Option GoString
  | [] => (r.ends ⟨before, []⟩).head?.map fun _ => []
  | p :: rest =>
    match (r.ends ⟨before, p :: rest⟩).head? with
    | some e => some (((p :: rest).take ((p :: rest).length - e.rest.length)).flatMap Prod.snd)
    | none => findFrom r (p.1 :: before) rest

/-- `Regexp.FindString`, with the empty string for no match. -/
def findString (r : Regexp) (s : GoString) : GoString := (r.findFrom [] (spans s)).getD []

/-! ## Runes and classes -/

def literal (c : Char) : Regexp := oneOf [⟨[(c.toNat, c.toNat)], false, false⟩] false

theorem takes_literal (c d : Char) :
    takes [⟨[(c.toNat, c.toNat)], false, false⟩] false d = decide (d = c) := by
  have hiff : c.toNat ≤ d.toNat ∧ d.toNat ≤ c.toNat ↔ d = c := by
    constructor
    · intro h
      exact Char.toNat_inj.mp (Nat.le_antisymm h.2 h.1)
    · rintro rfl
      exact ⟨Nat.le_refl _, Nat.le_refl _⟩
  simp only [takes, ClassItem.has, inRanges, List.any_cons, List.any_nil, Bool.or_false,
    ← Bool.decide_and, hiff, Bool.false_eq_true, if_false, Bool.bne_false]

/-- The value of a hexadecimal digit. -/
def unhex (c : Char) : Option Nat :=
  if '0' ≤ c ∧ c ≤ '9' then some (c.toNat - 0x30)
  else if 'a' ≤ c ∧ c ≤ 'f' then some (c.toNat - 0x57)
  else if 'A' ≤ c ∧ c ≤ 'F' then some (c.toNat - 0x37)
  else none

/-- Hexadecimal digits up to a brace, one at least. -/
def hexBraced : (r : Nat) → (some_ : Bool) → List Char → Option (Nat × List Char)
  | r, some_, '\x7d' :: s => if some_ then some (r, s) else none
  | r, _, c :: s => do
    let v ← unhex c
    if 16 * r + v > 0x10FFFF then none else hexBraced (16 * r + v) true s
  | _, _, [] => none

def isOctal (c : Char) : Bool := decide ('0' ≤ c) && decide (c ≤ '7')

/-- Up to `n` more octal digits. -/
def octal : (n r : Nat) → List Char → Nat × List Char
  | n + 1, r, c :: s => if isOctal c then octal n (8 * r + (c.toNat - 0x30)) s else (r, c :: s)
  | _, r, s => (r, s)

/-- The code point of an escape, after its backslash. A digit other than zero alone would be a
back-reference, which Go does not have. -/
def parseEscape : List Char → Option (Nat × List Char)
  | 'x' :: '\x7b' :: s => hexBraced 0 false s
  | 'x' :: c :: d :: s => do
    let x ← unhex c
    let y ← unhex d
    some (16 * x + y, s)
  | 'a' :: s => some (0x07, s)
  | 'f' :: s => some (0x0C, s)
  | 'n' :: s => some (0x0A, s)
  | 'r' :: s => some (0x0D, s)
  | 't' :: s => some (0x09, s)
  | 'v' :: s => some (0x0B, s)
  | c :: s =>
    if c == '0' || (isOctal c && s.head?.any isOctal) then some (octal 2 (c.toNat - 0x30) s)
    else if decide (c.toNat < 0x80) && !c.isAlphanum then some (c.toNat, s)
    else none
  | [] => none

/-- The code points between two runes. -/
def span (lo hi : Char) : Nat × Nat := (lo.toNat, hi.toNat)

def perlDigit : List (Nat × Nat) := [span '0' '9']

def perlSpace : List (Nat × Nat) := [span '\t' '\n', span '\x0c' '\r', span ' ' ' ']

def perlWord : List (Nat × Nat) := [span '0' '9', span 'A' 'Z', span '_' '_', span 'a' 'z']

/-- The classes `\d`, `\s` and `\w`, and with a capital letter their complements. -/
def perlClass (fold : Bool) : Char → Option ClassItem
  | 'd' => some ⟨perlDigit, fold, false⟩
  | 'D' => some ⟨perlDigit, fold, true⟩
  | 's' => some ⟨perlSpace, fold, false⟩
  | 'S' => some ⟨perlSpace, fold, true⟩
  | 'w' => some ⟨perlWord, fold, false⟩
  | 'W' => some ⟨perlWord, fold, true⟩
  | _ => none

/-- The classes with a name. -/
def posixGroup : List (List Char × List (Nat × Nat)) :=
  [("alnum".toList, [span '0' '9', span 'A' 'Z', span 'a' 'z']),
   ("alpha".toList, [span 'A' 'Z', span 'a' 'z']),
   ("ascii".toList, [(0x00, 0x7F)]),
   ("blank".toList, [span '\t' '\t', span ' ' ' ']),
   ("cntrl".toList, [(0x00, 0x1F), (0x7F, 0x7F)]),
   ("digit".toList, perlDigit),
   ("graph".toList, [span '!' '~']),
   ("lower".toList, [span 'a' 'z']),
   ("print".toList, [span ' ' '~']),
   ("punct".toList, [span '!' '/', span ':' '@', (0x5B, 0x60), (0x7B, 0x7E)]),
   ("space".toList, [span '\t' '\r', span ' ' ' ']),
   ("upper".toList, [span 'A' 'Z']),
   ("word".toList, perlWord),
   ("xdigit".toList, [span '0' '9', span 'A' 'F', span 'a' 'f'])]

/-- What stands before a mark of two runes, and what behind it. -/
def cutAt (x y : Char) : List Char → Option (List Char × List Char)
  | c :: d :: s =>
    if c = x ∧ d = y then some ([], s)
    else (cutAt x y (d :: s)).map fun p => (c :: p.1, p.2)
  | _ => none

/-- A rune of a class, or an escape of one. -/
def classRune : List Char → Option (Nat × List Char)
  | '\\' :: s => parseEscape s
  | c :: s => some (c.toNat, s)
  | [] => none

/-- A rune or a range of runes. A dash before the bracket stands for itself. -/
def classRange (fold : Bool) (s : List Char) : Option (ClassItem × List Char) := do
  let (lo, s) ← classRune s
  match s with
  | '-' :: ']' :: _ => some (⟨[(lo, lo)], fold, false⟩, s)
  | '-' :: s =>
    let (hi, s) ← classRune s
    if hi < lo then none else some (⟨[(lo, hi)], fold, false⟩, s)
  | _ => some (⟨[(lo, lo)], fold, false⟩, s)

/-- An item of a class: a class of its own, a rune or a range of runes. -/
def classItem (fold : Bool) (s : List Char) : Option (ClassItem × List Char) :=
  match s with
  | '[' :: ':' :: rest =>
    match cutAt ':' ']' rest with
    | some ('^' :: name, rest) => (posixGroup.lookup name).map fun r => (⟨r, fold, true⟩, rest)
    | some (name, rest) => (posixGroup.lookup name).map fun r => (⟨r, fold, false⟩, rest)
    -- without an end of the name the bracket stands for itself
    | none => classRange fold s
  | '\\' :: c :: rest =>
    match perlClass fold c with
    | some i => some (i, rest)
    | none => classRange fold s
  | _ => classRange fold s

/-- The items of a class up to its bracket. A bracket that comes first stands for itself. -/
def classItems (fold : Bool) : Nat → Bool → List Char → Option (List ClassItem × List Char)
  | 0, _, _ => none
  | _ + 1, false, ']' :: s => some ([], s)
  | fuel + 1, _, s => do
    let (i, s) ← classItem fold s
    let (items, s) ← classItems fold fuel false s
    some (i :: items, s)

/-! ## Repetitions -/

/-- The decimal number in front, without leading zeros. -/
def number (s : List Char) : Option (Nat × List Char) :=
  let digits := s.takeWhile Char.isDigit
  if digits.isEmpty || (decide (digits.length > 1) && digits.head? == some '0') then none
  else some (digits.foldl (fun n c => 10 * n + (c.toNat - 48)) 0, s.dropWhile Char.isDigit)

/-- The bounds of a counted repetition, after its brace. -/
def bounds (s : List Char) : Option (Nat × Option Nat × List Char) := do
  let (min, s) ← number s
  match s with
  | '\x7d' :: s => some (min, some min, s)
  | ',' :: '\x7d' :: s => some (min, none, s)
  | ',' :: s =>
    let (max, s) ← number s
    match s with
    | '\x7d' :: s => some (min, some max, s)
    | _ => none
  | _ => none

/-- Counted repetitions inside each other make at most `n` copies. -/
def repeatIsValid : Regexp → (n : Nat) → Bool
  | counted min max _ a, n =>
    if max = some 0 then true
    else
      let m := max.getD min
      if m > n then false else repeatIsValid a (if m > 0 then n / m else n)
  | cat a b, n => repeatIsValid a n && repeatIsValid b n
  | alt a b, n => repeatIsValid a n && repeatIsValid b n
  | star _ a, n => repeatIsValid a n
  | empty, _ => true
  | oneOf _ _, _ => true
  | anchor _, _ => true

/-- What stands behind an expression to repeat it. -/
inductive Quantifier where
  | star
  | plus
  | quest
  | counted (min : Nat) (max : Option Nat)

/-- The repeated expression. -/
def Quantifier.apply (greedy : Bool) (r : Regexp) : Quantifier → Option Regexp
  | star => some (r.star greedy)
  | plus => some (r.cat (r.star greedy))
  | quest => some (if greedy then r.alt .empty else Regexp.empty.alt r)
  | counted min max =>
    let re := r.counted min max greedy
    if (decide (min ≥ 2) || max.any (· ≥ 2)) && !re.repeatIsValid 1000 then none else some re

/-! ## The parser -/

/-- What a pattern can change: case folding, the meaning of `^` and `$`, that of `.`, and which
repetitions are greedy. -/
structure Flags where
  foldCase : Bool
  oneLine : Bool
  dotNL : Bool
  nonGreedy : Bool

/-- The flags of `regexp.Compile`. -/
def Flags.perl : Flags := ⟨false, true, false, false⟩

/-- A group that is still open: its finished alternatives and the pieces of the current one, last
ones first. -/
structure Group where
  alts : List Regexp
  seq : List Regexp

/-- The pieces of an alternative, one after the other. -/
def concat (seq : List Regexp) : Regexp := seq.foldl (fun r a => cat a r) empty

def Group.close (g : Group) : Regexp := g.alts.foldl (fun r a => alt a r) (concat g.seq)

/-- The state of the parser: the flags, the innermost open group, the groups around it with the flags
to return to, and whether the last piece was a repetition. -/
structure Parser where
  flags : Flags
  group : Group
  outer : List (Flags × Group)
  lastRepeat : Bool

def Parser.new : Parser := ⟨.perl, ⟨[], []⟩, [], false⟩

namespace Parser

variable (p : Parser)

def push (r : Regexp) : Parser :=
  { p with group := ⟨p.group.alts, r :: p.group.seq⟩, lastRepeat := false }

/-- A single rune, in either case where the flag says so. -/
def literal (n : Nat) : Parser := p.push (oneOf [⟨[(n, n)], p.flags.foldCase, false⟩] false)

/-- A group begins, with other flags inside. -/
def openGroup (flags : Flags) : Parser :=
  ⟨flags, ⟨[], []⟩, (p.flags, p.group) :: p.outer, false⟩

def closeGroup : Option Parser :=
  match p.outer with
  | [] => none
  | (flags, g) :: outer => some ⟨flags, ⟨g.alts, p.group.close :: g.seq⟩, outer, false⟩

def verticalBar : Parser :=
  { p with group := ⟨concat p.group.seq :: p.group.alts, []⟩, lastRepeat := false }

/-- Whether a quantifier prefers more. A question mark behind it changes that. -/
def greedy : List Char → Bool × List Char
  | '?' :: s => (p.flags.nonGreedy, s)
  | s => (!p.flags.nonGreedy, s)

/-- A quantifier needs something to repeat, and none stands right before it. -/
def repeated (q : Quantifier) (s : List Char) : Option (Parser × List Char) :=
  if p.lastRepeat then none
  else
    match p.group.seq with
    | [] => none
    | r :: seq =>
      (q.apply (p.greedy s).1 r).map fun r =>
        ({ p with group := ⟨p.group.alts, r :: seq⟩, lastRepeat := true }, (p.greedy s).2)

/-- A class, after its bracket. -/
def parseClass (negated : Bool) (s : List Char) : Option (Parser × List Char) := do
  let (items, s) ← classItems p.flags.foldCase (s.length + 1) true s
  some (p.push (oneOf items negated), s)

end Parser

/-- The name of a group, up to its bracket. -/
def groupName (s : List Char) : Option (List Char) :=
  match s.dropWhile isWord with
  | '>' :: rest => if (s.takeWhile isWord).isEmpty then none else some rest
  | _ => none

/-- Flags after `(?`, which letters set, and behind a dash clear, and whether they are those of a
group. -/
def flagLetters : Flags → (set sawFlag : Bool) → List Char → Option (Flags × Bool × List Char)
  | f, set, _, 'i' :: s => flagLetters { f with foldCase := set } set true s
  | f, set, _, 'm' :: s => flagLetters { f with oneLine := !set } set true s
  | f, set, _, 's' :: s => flagLetters { f with dotNL := set } set true s
  | f, set, _, 'U' :: s => flagLetters { f with nonGreedy := set } set true s
  | f, true, _, '-' :: s => flagLetters f false false s
  | f, set, sawFlag, ':' :: s => if set || sawFlag then some (f, true, s) else none
  | f, set, sawFlag, ')' :: s => if set || sawFlag then some (f, false, s) else none
  | _, _, _, _ => none

/-- A group that begins with `(?`, or flags for the rest of the group around. -/
def parsePerlFlags (p : Parser) : List Char → Option (Parser × List Char)
  | 'P' :: '<' :: s => (groupName s).map fun s => (p.openGroup p.flags, s)
  | '<' :: s => (groupName s).map fun s => (p.openGroup p.flags, s)
  | s => do
    let (flags, opens, s) ← flagLetters p.flags true false s
    if opens then some (p.openGroup flags, s)
    else some ({ p with flags := flags, lastRepeat := false }, s)

/-- A piece that begins with a backslash. -/
def parseBackslash (p : Parser) : List Char → Option (Parser × List Char)
  | 'A' :: s => some (p.push (anchor .beginText), s)
  | 'b' :: s => some (p.push (anchor .wordBoundary), s)
  | 'B' :: s => some (p.push (anchor .noWordBoundary), s)
  | 'z' :: s => some (p.push (anchor .endText), s)
  | 'Q' :: s =>
    let (quoted, s) := (cutAt '\\' 'E' s).getD (s, [])
    some ({ quoted.foldl (fun p c => p.literal c.toNat) p with lastRepeat := false }, s)
  | s =>
    match s.head?.bind (perlClass p.flags.foldCase) with
    | some i => some (p.push (oneOf [i] false), s.tail)
    | none => (parseEscape s).map fun e => (p.literal e.1, e.2)

/-- Any rune, or any but a line break. -/
def anyRune (dotNL : Bool) : Regexp :=
  if dotNL then oneOf [] true else oneOf [⟨[(0x0A, 0x0A)], false, false⟩] true

/-- The first piece of a pattern. -/
def step (p : Parser) : List Char → Option (Parser × List Char)
  | [] => none
  | '(' :: '?' :: s => parsePerlFlags p s
  | '(' :: s => some (p.openGroup p.flags, s)
  | '|' :: s => some (p.verticalBar, s)
  | ')' :: s => p.closeGroup.map fun p => (p, s)
  | '^' :: s => some (p.push (anchor (if p.flags.oneLine then .beginText else .beginLine)), s)
  | '$' :: s => some (p.push (anchor (if p.flags.oneLine then .endText else .endLine)), s)
  | '.' :: s => some (p.push (anyRune p.flags.dotNL), s)
  | '[' :: '^' :: s => p.parseClass true s
  | '[' :: s => p.parseClass false s
  | '*' :: s => p.repeated .star s
  | '+' :: s => p.repeated .plus s
  | '?' :: s => p.repeated .quest s
  | '\x7b' :: s =>
    match bounds s with
    -- braces that hold no bounds stand for themselves
    | none => some (p.literal 0x7B, s)
    | some (min, max, s) =>
      if min > 1000 || max.any (· > 1000) || max.any (· < min) then none
      else p.repeated (.counted min max) s
  | '\\' :: s => parseBackslash p s
  | c :: s => some (p.literal c.toNat, s)

/-- The parser at the end of a pattern. Every piece takes a rune, so the length of the pattern is
enough fuel. -/
def parse : Nat → Parser → List Char → Option Parser
  | _, p, [] => some p
  | 0, _, _ :: _ => none
  | fuel + 1, p, s => do
    let (p, s) ← step p s
    parse fuel p s

/-- `regexp.Compile`, `none` for an error. -/
def compile (pattern : GoString) : Option Regexp :=
  if (spans pattern).all fun p => p.2 == String.utf8EncodeChar p.1 then do
    let p ← parse (runes pattern).length .new (runes pattern)
    if p.outer.isEmpty then some p.group.close else none
  else none

end Regexp

/-- `regexp.MatchString`, `none` for an error. -/
def matchString (pattern s : GoString) : Option Bool :=
  (Regexp.compile pattern).map fun r => (r.findFrom [] (spans s)).isSome

example : matchString (lit "^sales_.*_20[[:digit:]]{2}$") (lit "sales_eu_2024") = some true := by
  decide +kernel

example : matchString (lit "^(?i:ab)\\x63(?s).\\Q.*\\E$") (lit "AbC\n.*") = some false ∧
    matchString (lit "^(?i:ab)\\x63(?s).\\Q.*\\E$") (lit "Abc\n.*") = some true := by decide +kernel

example : matchString (lit "^a(b|c$") (lit "ab") = none := by decide +kernel

example : (Regexp.compile (lit "[a-z]+_db_\\d+")).map (·.findString (lit "on test_db_42x")) =
    some (lit "test_db_42") := by decide +kernel

end GoStd
