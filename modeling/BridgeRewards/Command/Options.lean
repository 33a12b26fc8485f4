/-!
# Options on a command line

An option has a long name after two dashes and perhaps a letter after one.  A flag stands alone;
any other option has a value, after an equals sign or in the next word, where a word that starts
with a dash is no value.  Letters may be run together, and the rest of such a word is the value of
the first letter that takes one.  No option may be given twice.
-/

set_option autoImplicit false

namespace BridgeRewards

/-- How an option is written. -/
structure OptionForm where
  name : String
  letter : Option Char := none
  isFlag : Bool := false
  deriving DecidableEq

/-- The options that were given, with their values. -/
structure GivenOptions where
  values : List (String × String) := []

namespace GivenOptions

/-- The value of an option, if it was given. -/
def find? (given : GivenOptions) (name : String) : Option String := given.values.lookup name

/-- Whether a flag was given. -/
def has (given : GivenOptions) (name : String) : Bool := (given.find? name).isSome

/-- The options with one more, unless it was given before. -/
def add? (given : GivenOptions) (name value : String) : Option GivenOptions :=
  if given.has name then none else some ⟨(name, value) :: given.values⟩

end GivenOptions

/-- What a word of a command line says. -/
inductive OptionWord
  /-- The word is no option. -/
  | plain
  /-- The word gives these options, all of them with their values. -/
  | complete (options : List (String × String))
  /-- The word gives these options, and then one whose value is the next word. -/
  | awaiting (options : List (String × String)) (name : String)
  /-- The word is an option that does not exist or is not written in this way. -/
  | refused

namespace OptionWord

/-- What letters that are run together say; `before` are the flags in front of them. -/
def ofLetters (forms : List OptionForm) (before : List (String × String)) : List Char → OptionWord
  | [] => complete before
  | c :: rest =>
    match forms.find? (·.letter == some c) with
    | none => refused
    | some form =>
      if form.isFlag then ofLetters forms (before ++ [(form.name, "")]) rest
      else
        match rest with
        | [] => awaiting before form.name
        | '=' :: value => complete (before ++ [(form.name, String.ofList value)])
        | value => complete (before ++ [(form.name, String.ofList value)])

/-- What the part of a word behind two dashes says. -/
def ofLong (forms : List OptionForm) (cs : List Char) : OptionWord :=
  let name := String.ofList (cs.takeWhile (· != '='))
  match forms.find? (·.name == name), cs.dropWhile (· != '=') with
  | none, _ => refused
  | some form, [] => if form.isFlag then complete [(form.name, "")] else awaiting [] form.name
  | some form, _ :: value =>
    if form.isFlag then refused else complete [(form.name, String.ofList value)]

/-- What a word says.  A dash alone is no option, and two dashes alone end the options. -/
def ofText (forms : List OptionForm) (word : String) : OptionWord :=
  match word.toList with
  | ['-'] => plain
  | ['-', '-'] => plain
  | '-' :: '-' :: cs => ofLong forms cs
  | '-' :: cs => ofLetters forms [] cs
  | _ => plain

end OptionWord

/-- Whether a word may stand as the value of the option before it. -/
def isOptionValue (word : String) : Bool :=
  match word.toList with
  | ['-'] => true
  | '-' :: _ => false
  | _ => true

namespace GivenOptions

/-- The options with more of them, unless one was given before. -/
def addAll? (given : GivenOptions) (options : List (String × String)) : Option GivenOptions :=
  options.foldlM (fun given (name, value) => given.add? name value) given

/-- Reads the options at the start of a command line, and answers the words after them. -/
def read? (forms : List OptionForm) (given : GivenOptions) :
    List String → Option (GivenOptions × List String)
  | [] => some (given, [])
  | word :: rest =>
    match OptionWord.ofText forms word with
    | .plain => some (given, word :: rest)
    | .refused => none
    | .complete options => do read? forms (← given.addAll? options) rest
    | .awaiting options name =>
      match rest with
      | [] => none
      | value :: later =>
        if isOptionValue value then do
          read? forms (← (← given.addAll? options).add? name value) later
        else none

end GivenOptions

end BridgeRewards
