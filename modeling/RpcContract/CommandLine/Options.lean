/-!
Reading the words of a command line as options. An option is called by its name after two dashes or
by its letter after one; what it takes follows in the same word or is the next word. Letters may
share a word. Words that are no options are refused.
-/

namespace RpcContract.CommandLine

inductive Takes where
  | nothing
  | text
  /-- A path, which is not empty. -/
  | path
deriving DecidableEq, Repr

structure OptionForm where
  name : String
  letter : Option Char
  takes : Takes
  repeats : Bool
deriving DecidableEq, Repr

/-- Why a program does not run. -/
inductive Halt where
  | help
  | misuse
deriving DecidableEq, Repr

/-- The options given, in order, by name and with what they take. -/
abbrev Given := List (String × String)

namespace Given

def has (given : Given) (name : String) : Bool := given.any (·.1 = name)

def all (given : Given) (name : String) : List String :=
  (given.filter (·.1 = name)).map (·.2)

def first? (given : Given) (name : String) : Option String := (given.all name).head?

end Given

/-- What a word of the command line is. -/
inductive Word where
  /-- Two dashes alone: only words that are no options may follow. -/
  | stop
  | long (name : String) (value : Option String)
  | letters (cs : List Char)
  | plain (text : String)
deriving DecidableEq, Repr

/-- What stands before the first equality sign, and what stands after it. -/
def splitValue (cs : List Char) : String × Option String :=
  (String.ofList (cs.takeWhile (· != '=')),
    match cs.dropWhile (· != '=') with
    | [] => none
    | _ :: value => some (String.ofList value))

def Word.ofText (text : String) : Word :=
  match text.toList with
  | ['-', '-'] => .stop
  | '-' :: '-' :: cs => let (name, value) := splitValue cs; .long name value
  | '-' :: c :: cs => .letters (c :: cs)
  | _ => .plain text

def helpForm : OptionForm := ⟨"help", some 'h', .nothing, false⟩

def accept (given : Given) (form : OptionForm) (value : String) : Except Halt Given :=
  if form = helpForm then .error .help
  else if form.takes = .path ∧ value = "" then .error .misuse
  else if !form.repeats ∧ given.has form.name then .error .misuse
  else .ok (given ++ [(form.name, value)])

/-- What is read so far, and the option that still waits for what it takes. -/
structure Progress where
  given : Given
  waiting : Option OptionForm
deriving DecidableEq, Repr

def Progress.done (given : Given) : Progress := ⟨given, none⟩

def readLong (forms : List OptionForm) (given : Given) (name : String) (value : Option String) :
    Except Halt Progress :=
  match forms.find? (·.name = name), value with
  | none, _ => .error .misuse
  | some form, some value =>
    if form.takes = .nothing then .error .misuse
    else (accept given form value).map .done
  | some form, none =>
    if form.takes = .nothing then (accept given form "").map .done
    else .ok ⟨given, some form⟩

/-- An option that takes something takes the rest of its word, where there is a rest. -/
def readLetters (forms : List OptionForm) (given : Given) : List Char → Except Halt Progress
  | [] => .ok (.done given)
  | c :: cs =>
    match forms.find? (·.letter = some c) with
    | none => .error .misuse
    | some form =>
      if form.takes = .nothing then do readLetters forms (← accept given form "") cs
      else
        match cs with
        | [] => .ok ⟨given, some form⟩
        | '=' :: value => (accept given form (String.ofList value)).map .done
        | value => (accept given form (String.ofList value)).map .done

def readWords (forms : List OptionForm) : Progress → List String → Except Halt Given
  | ⟨given, none⟩, [] => .ok given
  | ⟨_, some _⟩, [] => .error .misuse
  | ⟨given, none⟩, word :: words =>
    match Word.ofText word with
    | .stop => if words = [] then .ok given else .error .misuse
    | .long name value => do readWords forms (← readLong forms given name value) words
    | .letters cs => do readWords forms (← readLetters forms given cs) words
    | .plain _ => .error .misuse
  | ⟨given, some form⟩, word :: words =>
    match Word.ofText word with
    | .plain text => do readWords forms (.done (← accept given form text)) words
    | _ => .error .misuse

/-- The options on a command line, if every word is in its place. -/
def readOptions (forms : List OptionForm) (words : List String) : Except Halt Given :=
  readWords (helpForm :: forms) (.done []) words

end RpcContract.CommandLine
