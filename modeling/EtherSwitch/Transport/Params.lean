/-! Transport strings: a name, and after a colon options as `key=value` pieces between commas. The last
    value given for a key counts. -/

namespace EtherSwitch.Transport

/-- The text before and after the first `sep`, if there is one. -/
def cut? (sep : Char) : List Char → Option (List Char × List Char)
  | [] => none
  | c :: rest =>
    if c = sep then some ([], rest) else (cut? sep rest).map fun (before, after) => (c :: before, after)

/-- The pieces of a text between `sep`s; a text without one is a single piece. -/
def pieces (sep : Char) : List Char → List (List Char)
  | [] => [[]]
  | c :: rest =>
    if c = sep then [] :: pieces sep rest
    else
      match pieces sep rest with
      | [] => [[c]]
      | piece :: more => (c :: piece) :: more

/-- A transport name with its options. -/
structure Params where
  name : String
  options : List (String × String)
  deriving DecidableEq, Repr

/-- Why a text is no transport string. -/
inductive ParamsError where
  | noTransport
  | malformedOption (piece : String)
  deriving DecidableEq, Repr

def ParamsError.message : ParamsError → String
  | noTransport => "No transport given"
  | malformedOption piece => s!"Invalid parameter format: '{piece}' (expected key=value)"

/-- The options with one more; a key that is there already takes the new value in its place. -/
def putOption (options : List (String × String)) (key value : String) : List (String × String) :=
  match options with
  | [] => [(key, value)]
  | (k, v) :: rest => if k = key then (k, value) :: rest else (k, v) :: putOption rest key value

/-- The value of a key. -/
def option? (options : List (String × String)) (key : String) : Option String := options.lookup key

def addPiece (options : List (String × String)) (piece : List Char) :
    Except ParamsError (List (String × String)) :=
  match cut? '=' piece with
  | some (key, value) => .ok (putOption options (String.ofList key) (String.ofList value))
  | none => .error (.malformedOption (String.ofList piece))

def optionsOfText (text : List Char) : Except ParamsError (List (String × String)) :=
  if text = [] then .ok [] else (pieces ',' text).foldlM addPiece []

/-- Reads a transport string. -/
def Params.ofText (text : String) : Except ParamsError Params := do
  let (name, rest) := (cut? ':' text.toList).getD (text.toList, [])
  if name = [] then throw .noTransport
  return ⟨String.ofList name, ← optionsOfText rest⟩

theorem option?_putOption_self (options : List (String × String)) (key value : String) :
    option? (putOption options key value) key = some value := by
  induction options with
  | nil => simp [putOption, option?]
  | cons kv rest ih =>
    obtain ⟨k, v⟩ := kv
    by_cases h : k = key
    · simp [putOption, option?, h]
    · simp only [putOption, h, if_false, option?, List.lookup_cons, beq_eq_false_iff_ne.mpr (Ne.symm h)]
      exact ih

theorem option?_putOption_of_ne (options : List (String × String)) {key other : String} (value : String)
    (h : other ≠ key) :
    option? (putOption options key value) other = option? options other := by
  induction options with
  | nil => simp [putOption, option?, List.lookup_cons, beq_eq_false_iff_ne.mpr h]
  | cons kv rest ih =>
    obtain ⟨k, v⟩ := kv
    by_cases hk : k = key
    · subst hk
      simp [putOption, option?, List.lookup_cons, beq_eq_false_iff_ne.mpr h]
    · simp only [putOption, hk, if_false, option?, List.lookup_cons] at ih ⊢
      rw [ih]

end EtherSwitch.Transport
