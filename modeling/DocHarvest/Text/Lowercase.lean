/-!
# Lower case, as far as ASCII words go

Lower case is only ever compared with words of ASCII letters. Besides the ASCII capitals two
characters have a lower case that starts with an ASCII letter: the Kelvin sign and the capital I
with a dot. Every other character stays away from ASCII in lower case, so leaving it alone changes
no comparison.
-/

namespace DocHarvest.Text

/-- The lower case of a character, or the character itself if its lower case has no ASCII letter. -/
def lower (c : Char) : List Char :=
  if c.toNat < 0x80 then [c.toLower]
  else if c.toNat = 0x212a then ['k']
  else if c.toNat = 0x130 then ['i', Char.ofNat 0x307]
  else [c]

/-- A text in lower case, as far as ASCII words go. -/
def lowercase (cs : List Char) : List Char :=
  cs.flatMap lower

end DocHarvest.Text
