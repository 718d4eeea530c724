set_option autoImplicit false

/-! # Named characters

The characters of all scripts have names, by which a written pattern can ask for them. Which names
there are changes from one edition of the standard to the next and matters to nothing else, so
whatever reads patterns takes the names as given. -/

namespace Hazard

/-- The characters by their names. -/
class CharacterNames where
  /-- The character with a name, if there is one. -/
  named? : String → Option Char

namespace CharacterNames

/-- Where no names are needed, there are none. -/
scoped instance nameless : CharacterNames := ⟨fun _ => none⟩

end CharacterNames

end Hazard
