import DocHarvest.Unicode.Uppercase

/-!
# Exported names

A name is visible outside its package if its first character is upper-case.
-/

namespace DocHarvest

/-- Whether a name is exported. -/
def isExported (name : String) : Bool :=
  name.toList.head?.any Unicode.isUppercase

end DocHarvest
