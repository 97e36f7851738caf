import KeaDhcp.Util.StrUtil

/-!
# JSON elements

`Element` and `MapElement` of `src/lib/cc/data.h`. Integers are those of `int64_t`. A map is the list
of its members; a name is there once, since `set` overwrites.
-/

namespace Data

open Util

inductive Element where
  | null
  | integer (value : Int)
  | boolean (value : Bool)
  | string (value : Text)
  | list (elements : List Element)
  | map (members : List (String × Element))

/-- The members of a map. -/
abbrev MapElement := List (String × Element)

namespace MapElement

def get (name : String) : MapElement → Option Element
  | [] => none
  | (key, value) :: members => if key = name then some value else get name members

def set (name : String) (value : Element) : MapElement → MapElement
  | [] => [(name, value)]
  | (key, old) :: members =>
    if key = name then (name, value) :: members else (key, old) :: set name value members

def remove (members : MapElement) (name : String) : MapElement := members.filter (·.1 ≠ name)

variable {value : Element} {members : MapElement} {name : String}

@[simp] theorem get_set_self : get name (set name value members) = some value := by
  induction members with
  | nil => simp [set, get]
  | cons member members ih =>
    obtain ⟨key, old⟩ := member
    by_cases hkey : key = name
    · simp [set, get, hkey]
    · simp [set, get, hkey, ih]

theorem get_set_ne {other : String} (hne : other ≠ name) :
    get other (set name value members) = get other members := by
  induction members with
  | nil => simp [set, get, hne.symm]
  | cons member members ih =>
    obtain ⟨key, old⟩ := member
    by_cases hkey : key = name
    · subst hkey
      simp [set, get, hne.symm]
    · simp [set, get, hkey, ih]

end MapElement

/-- `UserContext::contextToElement`: a comment stands beside the rest of the user context. -/
def contextToElement (context : Option MapElement) (map : MapElement) : MapElement :=
  match context with
  | none => map
  | some context =>
    match context.get "comment" with
    | some comment =>
      let copied := context.remove "comment"
      let map := map.set "comment" comment
      if copied.length > 0 then map.set "user-context" (.map copied) else map
    | none => map.set "user-context" (.map context)

end Data
