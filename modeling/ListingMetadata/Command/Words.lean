/-
  ListingMetadata.Command.Words
  ─────────────────────────────
  **WORDS OF A COMMAND LINE.**

  A command line is read word by word.  Options begin with a hyphen, take their
  value from the same word or the next, and may stand anywhere; after a word of
  two hyphens all words are operands.  Nothing may be given twice.  The first
  word that is wrong, or asks for help or the version, decides.
-/

namespace ListingMetadata.Command

/-! ## §1. What may be given -/

/-- What a value or an operand may be. -/
inductive Content where
  | anyText
  /-- The name of a file, which is not empty. -/
  | fileName
deriving DecidableEq, Repr

/-- A word can be such a value. -/
def Content.admits : Content → String → Bool
  | .anyText, _ => true
  | .fileName, word => decide (word ≠ "")

/-- An option without a value, by its long name and its letter. -/
structure Switch where
  name : String
  letter : Option Char
deriving DecidableEq, Repr

/-- An option with a value. -/
structure Parameter extends Switch where
  content : Content
deriving DecidableEq, Repr

/-- What a command takes. -/
structure Synopsis where
  /-- Options with a value. -/
  valued : List Parameter
  /-- Options without one. -/
  flags : List Switch
  /-- The version may be asked for. -/
  versioned : Bool
  /-- What an operand is. -/
  operand : Content
  /-- The greatest number of operands. -/
  operands : Nat
  /-- The first operand ends the options. -/
  stopsAtOperand : Bool
deriving DecidableEq, Repr

/-- Why a command is not run. -/
inductive Stop where
  /-- The words are no command. -/
  | misuse
  /-- Help was asked for. -/
  | help
  /-- The version was asked for. -/
  | version
deriving DecidableEq, Repr

/-- What was given. -/
structure Given where
  values : List (String × String)
  flags : List String
  operands : List String
  /-- The words after the first operand, if that ends the options. -/
  rest : List String
deriving DecidableEq, Repr

/-- Nothing given. -/
def Given.none : Given :=
  ⟨[], [], [], []⟩

namespace Given

/-- With one more value. -/
def addValue (g : Given) (p : Parameter) (value : String) : Except Stop Given :=
  if (g.values.lookup p.name).isSome || !p.content.admits value then .error .misuse
  else .ok { g with values := (p.name, value) :: g.values }

/-- With one more flag. -/
def addFlag (g : Given) (name : String) : Except Stop Given :=
  if name ∈ g.flags then .error .misuse else .ok { g with flags := name :: g.flags }

/-- With one more operand. -/
def addOperand (g : Given) (s : Synopsis) (word : String) : Except Stop Given :=
  if g.operands.length < s.operands ∧ s.operand.admits word then
    .ok { g with operands := g.operands ++ [word] }
  else .error .misuse

/-- With several operands. -/
def addOperands (g : Given) (s : Synopsis) : List String → Except Stop Given
  | [] => .ok g
  | w :: ws => do
    let g ← g.addOperand s w
    addOperands g s ws

end Given

/-! ## §2. One word -/

/-- What one word of options says. -/
inductive Reading where
  /-- All of it is read. -/
  | done (given : Given)
  /-- The value of an option is still to come. -/
  | open (given : Given) (parameter : Parameter)
deriving DecidableEq, Repr

/-- A word of two hyphens and a name, perhaps with a value. -/
def readLong (s : Synopsis) (g : Given) (cs : List Char) : Except Stop Reading :=
  let name := String.ofList (cs.takeWhile (· ≠ '='))
  let attached := cs.dropWhile (· ≠ '=')
  match s.valued.find? fun p => decide (p.name = name) with
  | some p =>
    match attached with
    | [] => .ok (.open g p)
    | _ :: value => do
      let g ← g.addValue p (String.ofList value)
      .ok (.done g)
  | none =>
    if !attached.isEmpty then .error .misuse
    else if name = "help" then .error .help
    else if name = "version" ∧ s.versioned then .error .version
    else if s.flags.any fun o => decide (o.name = name) then do
      let g ← g.addFlag name
      .ok (.done g)
    else .error .misuse

/-- The letters after a hyphen, the last perhaps with a value. -/
def readLetters (s : Synopsis) : Given → List Char → Except Stop Reading
  | g, [] => .ok (.done g)
  | g, c :: cs =>
    match s.valued.find? fun p => decide (p.letter = some c) with
    | some p =>
      match cs with
      | [] => .ok (.open g p)
      | '=' :: value => do
        let g ← g.addValue p (String.ofList value)
        .ok (.done g)
      | value => do
        let g ← g.addValue p (String.ofList value)
        .ok (.done g)
    | none =>
      if c = 'h' then .error .help
      else if c = 'V' ∧ s.versioned then .error .version
      else
        match s.flags.find? fun o => decide (o.letter = some c) with
        | some o => do
          let g ← g.addFlag o.name
          readLetters s g cs
        | none => .error .misuse

/-! ## §3. All words -/

/-- A word that cannot be the value of the option before it. -/
def isOptionWord (word : String) : Bool :=
  match word.toList with
  | '-' :: _ :: _ => true
  | _ => false

/-- The words of a command, perhaps after an option whose value comes next. -/
def readWords (s : Synopsis) (g : Given) : Option Parameter → List String → Except Stop Given
  | none, [] => .ok g
  | some _, [] => .error .misuse
  | some p, w :: ws =>
    if isOptionWord w then .error .misuse
    else do
      let g ← g.addValue p w
      readWords s g none ws
  | none, w :: ws =>
    match w.toList with
    | ['-', '-'] => if s.stopsAtOperand then .error .misuse else g.addOperands s ws
    | '-' :: '-' :: cs => do
      match ← readLong s g cs with
      | .done g => readWords s g none ws
      | .open g p => readWords s g (some p) ws
    | '-' :: c :: cs => do
      match ← readLetters s g (c :: cs) with
      | .done g => readWords s g none ws
      | .open g p => readWords s g (some p) ws
    | _ =>
      if s.stopsAtOperand then .ok { g with operands := [w], rest := ws }
      else do
        let g ← g.addOperand s w
        readWords s g none ws

/-- What the words of a command give. -/
def Synopsis.read (s : Synopsis) (words : List String) : Except Stop Given :=
  readWords s Given.none none words

end ListingMetadata.Command
