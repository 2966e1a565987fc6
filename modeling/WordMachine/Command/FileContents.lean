import WordMachine.Text.Hidden
import WordMachine.Text.Numeral

/-!
# File contents

What becomes of opening a file: it has contents, there is no such file, or it cannot be read for a
reason that has a number. A message quotes the file's name, with codes in place of the characters
that do not show.

## Main definitions

* `FileError`: the reasons, with `FileError.message`
* `FileContents`: what becomes of opening a file
* `quoteName`: a file name as messages quote it
-/

namespace WordMachine

/-- The code of a character, with as many digits as its size asks for. -/
def characterCode (c : Char) : String :=
  let digits := String.ofList (Nat.toDigits 16 c.toNat)
  if c.toNat < 0x100 then "\\x" ++ Text.padStart 2 '0' digits
  else if c.toNat < 0x10000 then "\\u" ++ Text.padStart 4 '0' digits
  else "\\U" ++ Text.padStart 8 '0' digits

/-- A character as it stands between quotation marks of a kind. -/
def quoteCharacter (mark c : Char) : String :=
  if c = '\\' || c = mark then String.ofList ['\\', c]
  else if c = '\n' then "\\n"
  else if c = '\r' then "\\r"
  else if c = '\t' then "\\t"
  else if Text.isHidden c then characterCode c
  else String.ofList [c]

/-- A file name as messages quote it: between apostrophes, unless it holds apostrophes and no
double quotation marks. -/
def quoteName (name : String) : String :=
  let cs := name.toList
  let mark := if cs.contains '\'' && !cs.contains '"' then '"' else '\''
  let quotation := String.ofList [mark]
  quotation ++ String.join (cs.map (quoteCharacter mark)) ++ quotation

/-- Why a file cannot be read. -/
inductive FileError where
  /-- The file must not be read. -/
  | denied
  /-- The name goes through a file as if it were a directory. -/
  | notDirectory
  /-- The name is that of a directory. -/
  | isDirectory
  /-- The name, or a part of it, is too long. -/
  | nameTooLong
  /-- There is another reason, with its number. -/
  | other (number : Nat) (reason : String)
deriving DecidableEq, Repr

namespace FileError

/-- The reason with a number, or else another reason in given words. -/
def ofNumber (number : Nat) (reason : String) : FileError :=
  match number with
  | 13 => denied
  | 20 => notDirectory
  | 21 => isDirectory
  | 36 => nameTooLong
  | number => other number reason

/-- The number of a reason. -/
def number : FileError → Nat
  | denied => 13
  | notDirectory => 20
  | isDirectory => 21
  | nameTooLong => 36
  | other number _ => number

/-- The words for a reason. -/
def reason : FileError → String
  | denied => "Permission denied"
  | notDirectory => "Not a directory"
  | isDirectory => "Is a directory"
  | nameTooLong => "File name too long"
  | other _ reason => reason

/-- The message that a file with a name cannot be read. -/
def message (e : FileError) (name : String) : String :=
  "[Errno " ++ Numeral.decimal e.number ++ "] " ++ e.reason ++ ": " ++ quoteName name

end FileError

/-- What becomes of opening a file. -/
inductive FileContents where
  /-- The file holds bytes. -/
  | bytes (contents : ByteArray)
  /-- There is no such file. -/
  | missing
  /-- There can be no such file, for its name holds a null character. -/
  | unnameable
  /-- The file cannot be read. -/
  | unreadable (cause : FileError)

example : FileError.message .isDirectory "it's" = "[Errno 21] Is a directory: \"it's\"" := by
  decide +kernel

example : quoteName "a'\"\u00e9\u00a0" = "'a\\'\"\u00e9\\xa0'" := by decide +kernel

end WordMachine
