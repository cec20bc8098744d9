/-! Letter case where it is ignored: ASCII comparison of names, and keywords of stored definitions,
which fold case as Unicode does. Of the characters beyond ASCII only the long s and the Kelvin sign
fold to an ASCII letter. -/
namespace LiveSchema.Text

def asciiLower (c : Char) : Char := if c.isUpper then Char.ofNat (c.toNat + 32) else c

def asciiUpper (c : Char) : Char := if c.isLower then Char.ofNat (c.toNat - 32) else c

def foldLetter (c : Char) : Char :=
  if c = '\u017f' then 's' else if c = '\u212a' then 'k' else asciiLower c

def dropKeyword? : List Char → List Char → Option (List Char)
  | [], cs => some cs
  | _ :: _, [] => none
  | k :: ks, c :: cs => if foldLetter c = k then dropKeyword? ks cs else none

def dropStart? : List Char → List Char → Option (List Char)
  | [], cs => some cs
  | _ :: _, [] => none
  | k :: ks, c :: cs => if asciiLower c = asciiLower k then dropStart? ks cs else none

end LiveSchema.Text

namespace LiveSchema

def nameKey (name : String) : List Char := name.toList.map Text.asciiLower

end LiveSchema
