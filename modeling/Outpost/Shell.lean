import Outpost.Json

/-!
# Shell words

Command lines for a POSIX shell. A word of harmless characters stands as it is; any other word is
put between single quotes, inside which a single quote is written by closing the quotes, giving an
escaped quote, and opening them again.

## Contents

* `Shell.isPlain`: the characters that need no quoting.
* `Shell.quote`, `Shell.join`: one word, and a command line.
* `Shell.quoteValue`, `Shell.joinValues`: the same for words that need not be texts.
-/

namespace Outpost

namespace Shell

/-- Whether a character stands for itself outside quotes. -/
def isPlain (c : Char) : Bool :=
  c.isAlphanum || c = '_' || c = '@' || c = '%' || c = '+' || c = '=' || c = ':' || c = ','
    || c = '.' || c = '/' || c = '-'

/-- A character inside single quotes; a quote itself becomes `'\''`. -/
def quoteChar (c : Char) : List Char :=
  if c = '\'' then ['\'', '\\', '\'', '\''] else [c]

/-- A `word` as it is written in a command line: as it is if all of it `isPlain`, and in quotes
otherwise. -/
def quoteChars (word : List Char) : List Char :=
  if word ≠ [] && word.all isPlain then word
  else '\'' :: (word.flatMap quoteChar ++ ['\''])

/-- A `word` as it is written in a command line, by `quoteChars`. -/
def quote (word : String) : String := String.ofList (quoteChars word.toList)

/-- The command line for a list of `words`: each by `quote`, with blanks in between. -/
def join (words : List String) : String := " ".intercalate (words.map quote)

/-- A word as it is written in a command line, by `quote`; what is no text needs no quoting. -/
def quoteValue : Json → Json
  | .string word => .string (quote word)
  | other => other

/-- The command line for a list of `words`, by `quoteValue`. -/
def joinValues (words : List Json) : String := Json.joined " " (words.map quoteValue)

end Shell

end Outpost
