import JsonService.Config.Setting

/-!
# Environments

The environment of a process, and the table of settings that it holds: every variable with the right mark
before its name sets one value, and later ones are laid over earlier ones. Models the provider `Env` of
`figment`.
-/
namespace JsonService.Config

/-- Variables with their values, in the order in which they were first set. -/
abbrev Environment := List (String × String)

namespace Environment

def set (name value : String) : Environment → Environment
  | [] => [(name, value)]
  | (k, v) :: rest => if k = name then (k, value) :: rest else (k, v) :: set name value rest

/-- An environment with variables set one after the other. -/
def ofList (entries : List (String × String)) : Environment :=
  entries.foldl (fun env (name, value) => set name value env) []

def get? (name : String) : Environment → Option String
  | [] => none
  | (k, v) :: rest => if k = name then some v else get? name rest

/-- A variable has the value that it was set to last, and no other variable changes. -/
theorem get?_set (name value k : String) (env : Environment) :
    get? k (env.set name value) = if k = name then some value else get? k env := by
  induction env with
  | nil =>
    by_cases h : name = k
    · simp [set, get?, h]
    · simp [set, get?, h, Ne.symm h]
  | cons e rest ih =>
    obtain ⟨key, v⟩ := e
    by_cases hkey : key = name
    · subst hkey
      by_cases h : key = k
      · simp [set, get?, h]
      · simp [set, get?, h, Ne.symm h]
    · by_cases h : key = k
      · subst h
        simp [set, get?, hkey]
      · simp [set, get?, hkey, h, ih]

def mark : String := "TAPROOM_"

/-- Double underscores become points. -/
def pointed : List Char → List Char
  | '_' :: '_' :: cs => '.' :: pointed cs
  | c :: cs => c :: pointed cs
  | [] => []

/-- The path of the setting that a variable holds, if it holds one: the parts of its name in small letters. -/
def path? (name : String) : Option (List String) :=
  let name := (Text.trim name).toList
  if (name.take mark.length).map Char.toLower = mark.toList.map Char.toLower then
    let key := Text.stripEnds Text.isBlank (pointed (name.drop mark.length))
    let parts := Text.splitOn (· = '.') (key.map Char.toLower)
    if parts.any List.isEmpty then none else some (parts.map String.ofList)
  else none

/-- The setting that a variable holds, under its path. -/
def setting? (entry : String × String) : Option Setting :=
  (path? entry.1).map (Setting.nested (.parse entry.2))

def layeredOver (base : Setting) (env : Environment) : Setting :=
  Setting.overlay base ((env.filterMap setting?).foldl Setting.overlay (.table []))

end Environment

end JsonService.Config
