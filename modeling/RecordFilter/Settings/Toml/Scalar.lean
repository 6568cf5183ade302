import RecordFilter.Json.Reader
import RecordFilter.Settings.RawValue

/-!
# Scalars of TOML

A string stands between double quotes, where a backslash begins an escape, or between single quotes,
where it does not; three quotes in place of one let it go over several lines. Everything else is one
word: a truth value, an integer in one of four bases, a number, or a date or time, which is a text
written in the one usual form. Underscores may stand between digits.
-/

namespace RecordFilter.Settings.Toml

/-- Takes a value off the front of the text. -/
abbrev Reader (α : Type) := List Char → Option (α × List Char)

/-- The blanks within a line. -/
def isGap (c : Char) : Bool := c == ' ' || c == '\t'

/-- The text without the gaps it begins with. -/
def skipGaps (text : List Char) : List Char := text.dropWhile isGap

/-- The characters that no line holds. -/
def isControl (c : Char) : Bool := (c.toNat < 0x20 && c != '\t') || c.toNat == 0x7F

/-! ## Strings -/

/-- The character that a letter after a backslash stands for. -/
def escapeLetter? : Char → Option Char
  | 'b' => some '\x08'
  | 't' => some '\t'
  | 'n' => some '\n'
  | 'f' => some '\x0c'
  | 'r' => some '\r'
  | 'e' => some '\x1b'
  | '"' => some '"'
  | '\\' => some '\\'
  | _ => none

/-- How many hexadecimal digits follow the letter after a backslash. -/
def escapeDigits? : Char → Option Nat
  | 'x' => some 2
  | 'u' => some 4
  | 'U' => some 8
  | _ => none

/-- The character with the code point that the digits spell. -/
def codePoint? (digits : List Char) : Option Char :=
  (digits.mapM Json.hexDigit?).bind fun ds =>
    let n := ds.foldl (fun n d => n * 16 + d) 0
    if n < 0xD800 ∨ (0xE000 ≤ n ∧ n < 0x110000) then some (Char.ofNat n) else none

/-- Reads an escape after its backslash. -/
def escape? : Reader Char
  | [] => none
  | letter :: rest =>
    match escapeLetter? letter, escapeDigits? letter with
    | some c, _ => some (c, rest)
    | none, some digits =>
      if rest.length < digits then none
      else (codePoint? (rest.take digits)).map fun c => (c, rest.drop digits)
    | none, none => none

/-- Reads a string of one line after its opening quote, behind the characters `taken` so far (the
last one first). -/
def lineString (quote : Char) : Nat → List Char → Reader (List Char)
  | 0, _, _ => none
  | _ + 1, _, [] => none
  | bound + 1, taken, c :: rest =>
    if c = quote then some (taken.reverse, rest)
    else if c = '\\' ∧ quote = '"' then
      match escape? rest with
      | some (d, rest) => lineString quote bound (d :: taken) rest
      | none => none
    else if isControl c then none
    else lineString quote bound (c :: taken) rest

/-- The text after a line break, if it begins with one. -/
def afterBreak? : List Char → Option (List Char)
  | '\n' :: rest => some rest
  | '\r' :: '\n' :: rest => some rest
  | _ => none

/-- The text without the gaps and line breaks it begins with. -/
def skipBlanks (text : List Char) : List Char :=
  text.dropWhile fun c => isGap c || c == '\n' || c == '\r'

/-- Reads a string of several lines after its opening quotes. It ends with three quotes, before
which two more may stand. A backslash at the end of a line joins it to the next text. -/
def blockString (quote : Char) : Nat → List Char → Reader (List Char)
  | 0, _, _ => none
  | _ + 1, _, [] => none
  | bound + 1, taken, c :: rest =>
    if c = quote then
      let quotes := 1 + (rest.takeWhile (· == quote)).length
      if quotes < 3 then blockString quote bound (c :: taken) rest
      else
        let kept := min (quotes - 3) 2
        some ((List.replicate kept quote ++ taken).reverse, (c :: rest).drop (kept + 3))
    else if c = '\\' ∧ quote = '"' then
      match afterBreak? (skipGaps rest), escape? rest with
      | some rest, _ => blockString quote bound taken (skipBlanks rest)
      | none, some (d, rest) => blockString quote bound (d :: taken) rest
      | none, none => none
    else
      match afterBreak? (c :: rest) with
      | some rest => blockString quote bound ('\n' :: taken) rest
      | none => if isControl c then none else blockString quote bound (c :: taken) rest

/-- Reads a string at its opening quote. A line break right after three quotes does not count. -/
def string? : Reader String
  | [] => none
  | quote :: rest =>
    if quote = '"' ∨ quote = '\'' then
      let found :=
        if rest.take 2 = [quote, quote] then
          let body := rest.drop 2
          blockString quote (body.length + 1) [] ((afterBreak? body).getD body)
        else lineString quote (rest.length + 1) [] rest
      found.map fun (taken, rest) => (String.ofList taken, rest)
    else none

/-! ## Numbers -/

/-- The digits of a text of digits, in which single underscores may stand between two of them. -/
def digits? (isDigit : Char → Bool) (text : List Char) : Option (List Char) :=
  let groups := text.splitOn '_'
  if groups.all fun group => !group.isEmpty && group.all isDigit then some groups.flatten else none

/-- The digits of a text of decimal digits, which does not begin with a needless zero. -/
def wholeDigits? (text : List Char) : Option (List Char) :=
  match digits? Char.isDigit text with
  | some ('0' :: _ :: _) => none
  | found => found

/-- The integer in the base, of which `isDigit` recognises the digits. -/
def integerInBase? (base : Nat) (isDigit : Char → Bool) (text : List Char) : Option Int64 :=
  match digits? isDigit text with
  | none => none
  | some digits =>
    match digits.mapM Json.hexDigit? with
    | some ds => Numeral.toInt64? (ds.foldl (fun n d => n * base + d) 0 : Nat)
    | none => none

/-- The integer that a word is. -/
def integer? : List Char → Option Int64
  | '0' :: 'x' :: rest => integerInBase? 16 (fun c => (Json.hexDigit? c).isSome) rest
  | '0' :: 'o' :: rest => integerInBase? 8 (fun c => '0' ≤ c && c ≤ '7') rest
  | '0' :: 'b' :: rest => integerInBase? 2 (fun c => c == '0' || c == '1') rest
  | word =>
    let (negative, body) := Numeral.splitSign word
    (wholeDigits? body).bind fun digits =>
      Numeral.toInt64? (Numeral.signed negative (Numeral.ofDigits digits))

/-- The digits of an exponent with their sign. -/
def exponent? (text : List Char) : Option (List Char) :=
  let (negative, body) := Numeral.splitSign text
  (digits? Char.isDigit body).map fun digits => (if negative then ['-'] else []) ++ digits

/-- The plain spelling of a number without its sign: with a point or an exponent, or both. -/
def unsignedReal? (text : List Char) : Option (List Char) :=
  let mantissa := text.takeWhile fun c => c != 'e' && c != 'E'
  let power := text.drop mantissa.length
  let whole := mantissa.takeWhile (· != '.')
  let fraction := mantissa.drop whole.length
  if power.isEmpty && fraction.isEmpty then none
  else
    match wholeDigits? whole,
      (if fraction.isEmpty then some [] else (digits? Char.isDigit fraction.tail).map ('.' :: ·)),
      (if power.isEmpty then some [] else (exponent? power.tail).map ('e' :: ·)) with
    | some whole, some fraction, some power => some (whole ++ fraction ++ power)
    | _, _, _ => none

/-- The number that a word is, or names. A number too large for the format is none. -/
def real? (word : List Char) : Option Binary64 :=
  let (negative, body) := Numeral.splitSign word
  if body = "inf".toList then some (.signed negative .infinity)
  else if body = "nan".toList then some .nan
  else
    match (unsignedReal? body).bind Numeral.unsigned? with
    | none => none
    | some d =>
      let x := Decimal.toBinary64 negative d
      if x = .signed negative .infinity then none else some x

/-! ## Dates and times -/

/-- The number that the text spells in this many digits. -/
def fixed? (count : Nat) (text : List Char) : Option Nat :=
  if text.length = count then Numeral.natural? text else none

/-- The year has a day more. -/
def isLeapYear (year : Nat) : Bool :=
  year % 4 == 0 && (year % 100 != 0 || year % 400 == 0)

/-- The number of days of a month. -/
def daysOf (year month : Nat) : Nat :=
  if month = 2 then (if isLeapYear year then 29 else 28)
  else if month = 4 ∨ month = 6 ∨ month = 9 ∨ month = 11 then 30
  else 31

/-- The text is a date: year, month and day with dashes between them. -/
def isDate (text : List Char) : Bool :=
  match text.splitOn '-' with
  | [year, month, day] =>
    match fixed? 4 year, fixed? 2 month, fixed? 2 day with
    | some year, some month, some day =>
      1 ≤ month && month ≤ 12 && 1 ≤ day && day ≤ daysOf year month
    | _, _, _ => false
  | _ => false

/-- The usual form of a fraction of a second: one to nine digits, without needless zeros at the
end. -/
def fractionForm (digits : List Char) : List Char :=
  let kept := ((digits.take 9).reverse.dropWhile (· == '0')).reverse
  '.' :: if kept.isEmpty then ['0'] else kept

/-- The usual form of seconds behind hours and minutes: none, or a colon and seconds, and perhaps a
fraction of a second. -/
def seconds? : List Char → Option (List Char)
  | [] => some []
  | ':' :: rest =>
    let second := rest.take 2
    match fixed? 2 second, rest.drop 2 with
    | none, _ => none
    | some s, fraction =>
      if 60 < s then none
      else
        match fraction with
        | [] => some (':' :: second)
        | '.' :: digits =>
          if !digits.isEmpty && digits.all Char.isDigit then
            some (':' :: second ++ fractionForm digits)
          else none
        | _ => none
  | _ => none

/-- The usual form of a time: hours and minutes with a colon between them, and perhaps seconds. -/
def time? (text : List Char) : Option (List Char) :=
  let clock := text.take 5
  match clock.splitOn ':' with
  | [hour, minute] =>
    match fixed? 2 hour, fixed? 2 minute with
    | some h, some m =>
      if h ≤ 23 ∧ m ≤ 59 then (seconds? (text.drop 5)).map fun seconds => clock ++ seconds else none
    | _, _ => none
  | _ => none

/-- The text is an offset from universal time: a sign, hours and minutes. -/
def isOffset : List Char → Bool
  | sign :: rest =>
    (sign == '+' || sign == '-') &&
      match rest.splitOn ':' with
      | [hour, minute] =>
        match fixed? 2 hour, fixed? 2 minute with
        | some h, some m => h ≤ 23 && m ≤ 59
        | _, _ => false
      | _ => false
  | [] => false

/-- The usual form of a time that may have an offset behind it. -/
def offsetTime? (text : List Char) : Option (List Char) :=
  let clock := text.takeWhile fun c => c.isDigit || c == ':' || c == '.'
  let offset := text.drop clock.length
  (time? clock).bind fun clock =>
    if offset.isEmpty then some clock
    else if offset = ['Z'] ∨ offset = ['z'] then some (clock ++ ['Z'])
    else if isOffset offset then
      some (clock ++ if offset.tail = "00:00".toList then "+00:00".toList else offset)
    else none

/-- The usual form of a date, a time, or a date with a time behind it. -/
def moment? (text : List Char) : Option (List Char) :=
  let date := text.take 10
  if isDate date then
    match text.drop 10 with
    | [] => some date
    | mark :: clock =>
      if mark = 'T' ∨ mark = 't' ∨ mark = ' ' then
        (offsetTime? clock).map fun clock => date ++ 'T' :: clock
      else none
  else time? text

/-! ## Words -/

/-- The characters of words. -/
def isWordChar (c : Char) : Bool :=
  c.isAlphanum || c == '+' || c == '-' || c == '_' || c == '.' || c == ':'

/-- The word that the text begins with; a date with a time behind a space is one. -/
def word (text : List Char) : List Char :=
  let first := text.takeWhile isWordChar
  match text.drop first.length with
  | ' ' :: c :: rest =>
    if isDate first && c.isDigit then first ++ ' ' :: (c :: rest).takeWhile isWordChar else first
  | _ => first

/-- The value that a word is. -/
def ofWord? (word : List Char) : Option RawValue :=
  if word = "true".toList then some (.bool true)
  else if word = "false".toList then some (.bool false)
  else
    match integer? word, real? word, moment? word with
    | some n, _, _ => some (.integer n)
    | none, some x, _ => some (.real x)
    | none, none, some text => some (.text (String.ofList text))
    | none, none, none => none

/-- Reads a value that is no collection. -/
def scalar? : Reader RawValue := fun text =>
  match text with
  | '"' :: _ => (string? text).map fun (s, rest) => (.text s, rest)
  | '\'' :: _ => (string? text).map fun (s, rest) => (.text s, rest)
  | _ =>
    let w := word text
    (ofWord? w).map fun v => (v, text.drop w.length)

end RecordFilter.Settings.Toml
