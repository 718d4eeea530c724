set_option autoImplicit false

/-! # Words for the members of an enumeration

Documents and reports name the members of each enumeration by fixed words. -/

namespace Hazard

/-- An enumeration whose members have words, listed in the order in which messages name them. -/
class Worded (α : Type) where
  members : List α
  word : α → String

namespace Worded

variable {α : Type} [Worded α]

/-- The member a word stands for. -/
def ofWord? (s : String) : Option α := (members : List α).find? fun a => word a == s

/-- All words, in order. -/
def words (α : Type) [Worded α] : List String := (members : List α).map word

end Worded

end Hazard
