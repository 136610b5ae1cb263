import DecoderId.Text.Basic

/-!
# Arguments

How the words of a command line are told apart. A word that starts with a dash is an
option: two dashes and a name, with a value behind `=` or in the next word, or one dash
and letters, the last of which may take the rest of the word, or the next word, as its
value. `--` ends the options.
-/

namespace DecoderId.Command

/-- An option that may be given: what it stands for, its names, and whether it takes a
value. -/
structure OptionSpec (κ : Type) where
  key : κ
  long : Text
  short : Option Nat := none
  takesValue : Bool := true

/-- An option that is given, with its value if it takes one. -/
structure Given (κ : Type) where
  key : κ
  value : Text := []

/-- The options and the other words of a command line. -/
structure Arguments (κ : Type) where
  options : List (Given κ) := []
  words : List Text := []

variable {κ : Type}

/-- What a word gives: options, and the key of one whose value is the next word. -/
structure Reading (κ : Type) where
  options : List (Given κ) := []
  awaiting : Option κ := none

/-- The options that the letters behind a dash give. -/
def readLetters (specs : List (OptionSpec κ)) : Text → Option (Reading κ)
  | [] => some {}
  | c :: rest =>
    match specs.find? (·.short = some c) with
    | none => none
    | some spec =>
      if spec.takesValue then
        some (if rest.isEmpty then { awaiting := some spec.key } else { options := [⟨spec.key, rest⟩] })
      else (readLetters specs rest).map fun r => { r with options := ⟨spec.key, []⟩ :: r.options }

/-- The option that a name behind two dashes gives. -/
def readName (specs : List (OptionSpec κ)) (word : Text) : Option (Reading κ) :=
  let (name, value) := Text.cut 0x3D word
  match specs.find? (·.long = name), value with
  | none, _ => none
  | some spec, some value => if spec.takesValue then some { options := [⟨spec.key, value⟩] } else none
  | some spec, none =>
    some (if spec.takesValue then { awaiting := some spec.key } else { options := [⟨spec.key, []⟩] })

/-- Tells the words apart; `none` if an option is unknown, lacks its value, or has one
that it does not take. Unless options may stand anywhere, the first other word ends
them. -/
def Arguments.read (specs : List (OptionSpec κ)) (anywhere : Bool) : List Text → Option (Arguments κ)
  | [] => some {}
  | word :: rest =>
    match word with
    | [0x2D, 0x2D] => some { words := rest }
    | 0x2D :: c :: letters =>
      let reading := if c = 0x2D then readName specs letters else readLetters specs (c :: letters)
      match reading with
      | none => none
      | some ⟨options, none⟩ =>
        (Arguments.read specs anywhere rest).map fun a => { a with options := options ++ a.options }
      | some ⟨options, some key⟩ =>
        match rest with
        | [] => none
        | value :: rest =>
          (Arguments.read specs anywhere rest).map fun a => { a with options := options ++ ⟨key, value⟩ :: a.options }
    | word =>
      if anywhere then (Arguments.read specs anywhere rest).map fun a => { a with words := word :: a.words }
      else some { words := word :: rest }

variable [DecidableEq κ]

/-- The values of an option, in the order in which they are given. -/
def Arguments.all (a : Arguments κ) (key : κ) : List Text := (a.options.filter (·.key = key)).map (·.value)

/-- The value of an option: the last one that is given. -/
def Arguments.last? (a : Arguments κ) (key : κ) : Option Text := (a.all key).getLast?

/-- Is the option given? -/
def Arguments.has (a : Arguments κ) (key : κ) : Bool := a.options.any (·.key = key)

end DecoderId.Command
