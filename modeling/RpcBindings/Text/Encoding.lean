/-!
# RpcBindings.Text.Encoding

What becomes of a text outside of the program, where it is bytes.  The texts of the program can hold
lone surrogates, which are no characters and have no bytes in UTF-8; each of them is stood for by a
character for private use that the texts do not hold otherwise.  Which characters these are, and
what the names of files can hold, is left to the surroundings of the program.
-/

namespace RpcBindings

/-- How texts are encoded. -/
class Encoding where
  /-- Whether UTF-8 has bytes for a character, which it has unless that stands for a lone
  surrogate. -/
  isWritable : Char → Bool
  /-- How many bytes a character takes in the name of a file, if there are any for it. -/
  nameSize? : Char → Option Nat
  /-- The names of files are written in an extension of ASCII. -/
  nameSize?_ascii : ∀ c : Char, c.toNat < 0x80 → nameSize? c = some 1

namespace Text

variable [Encoding]

/-- The bytes of a text in UTF-8, if all of its characters have some. -/
def encode? (s : String) : Option (List UInt8) :=
  if s.toList.all Encoding.isWritable then some s.toUTF8.toList else none

/-- Whether there are bytes for a text in the names of files. -/
def hasNameBytes (s : String) : Bool :=
  s.toList.all fun c => (Encoding.nameSize? c).isSome

/-- How many bytes a text takes in the names of files. -/
def nameSize (s : String) : Nat :=
  (s.toList.filterMap Encoding.nameSize?).foldr (· + ·) 0

end Text

end RpcBindings
