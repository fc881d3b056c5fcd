namespace TaskFlow

abbrev Store (α : Type) := List (String × α)

namespace Store

variable {α : Type}

def get? (s : Store α) (id : String) : Option α := (s.find? (·.1 == id)).map (·.2)

def has (s : Store α) (id : String) : Bool := (s.get? id).isSome

def erase (s : Store α) (id : String) : Store α := s.filter fun e => !(e.1 == id)

/-- The table with a value for an identifier, in place of any other. -/
def insert (s : Store α) (id : String) (a : α) : Store α := (id, a) :: s.erase id

/-- The table with the value of an identifier changed, if it has one. -/
def modify (s : Store α) (id : String) (f : α → α) : Store α :=
  s.map fun e => if e.1 == id then (e.1, f e.2) else e

def values (s : Store α) : List α := s.map (·.2)

def ids (s : Store α) : List String := s.map (·.1)

end Store

end TaskFlow
