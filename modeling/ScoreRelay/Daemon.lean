import ScoreRelay.Agent.Control

/-! The agent as a program: its command line, its configuration file, and the lines of a control
connection. -/
namespace ScoreRelay.Daemon

/-- Where the configuration is, and the path of the socket on which a host accepts control lines. Either
may be left out, which leaves the usual one. -/
structure Options where
  config : Option String := none
  socket : Option String := none
  deriving DecidableEq

inductive CommandLine where
  | run (options : Options)
  | help
  | invalid
  deriving DecidableEq

/-- Set an option, which may be done once and not to nothing. -/
def Options.set (o : Options) (name value : String) : Option Options :=
  if value.isEmpty then none
  else if name = "config" then if o.config.isSome then none else some { o with config := some value }
  else if name = "socket" then if o.socket.isSome then none else some { o with socket := some value }
  else none

/-- A long option without its dashes: its name, and the value after an equals sign. -/
def splitLong (cs : List Char) : String × Option String :=
  match cs.dropWhile (· ≠ '=') with
  | [] => (String.ofList cs, none)
  | _ :: value => (String.ofList (cs.takeWhile (· ≠ '=')), some (String.ofList value))

/-- Read the arguments from left to right. -/
def parse (o : Options) : List String → CommandLine
  | [] => .run o
  | arg :: rest =>
    match arg.toList with
    | ['-', '-'] => if rest.isEmpty then .run o else .invalid
    | '-' :: '-' :: cs =>
      match splitLong cs with
      | ("help", none) => .help
      | (name, some value) =>
        match o.set name value with
        | some o => parse o rest
        | none => .invalid
      | (name, none) =>
        match rest with
        | [] => .invalid
        | value :: rest =>
          if value.startsWith "-" && value ≠ "-" then .invalid
          else
            match o.set name value with
            | some o => parse o rest
            | none => .invalid
    | '-' :: 'h' :: _ => .help
    | _ => .invalid

/-- Why an agent does not start. -/
inductive StartError where
  | unreadableConfig (path : String)
  | config (e : ConfigError)
  deriving DecidableEq

def StartError.message : StartError → String
  | .unreadableConfig path => "failed to read config " ++ path
  | .config e => e.fault.message

/-- The configuration at a path, given what the file holds; without a path the usual one. A file that
is missing or is not text cannot be read. -/
def loadConfig (contents : String → Option (List UInt8)) : Option String → Except StartError Config
  | none => .ok {}
  | some path =>
    match (contents path).bind fun bs => String.fromUTF8? ⟨bs.toArray⟩ with
    | none => .error (.unreadableConfig path)
    | some text =>
      match Config.ofToml text with
      | .ok c => .ok c
      | .error e => .error (.config e)

/-- Cut bytes into lines. A line ends with a line feed, before which a carriage return is dropped; the
last one may lack it. `line` is the line so far in reverse. -/
def lines (line : List UInt8) : List UInt8 → List (List UInt8)
  | [] => if line.isEmpty then [] else [line.reverse]
  | b :: bs =>
    if b = 10 then
      (match line with
        | 13 :: before => before.reverse
        | _ => line.reverse) :: lines [] bs
    else lines (b :: line) bs

variable {σ : Type}

/-- Answer the lines of a connection. Blank lines are skipped; a line that is not text ends the
connection, and so does a crash. -/
def serve (b : Binder σ) (a : Agent σ) : List (List UInt8) → List (String × Reply) × Agent σ
  | [] => ([], a)
  | bs :: rest =>
    match String.fromUTF8? ⟨bs.toArray⟩ with
    | none => ([], a)
    | some line =>
      if Text.allBlank line then serve b a rest
      else
        match a.handleLine b line with
        | (.silent, a) => serve b a rest
        | (.crashed, a) => ([], a)
        | (.replied type reply, a) =>
          let (replies, a) := serve b a rest
          ((type, reply) :: replies, a)

/-- Answer all that a connection sends. -/
def serveBytes (b : Binder σ) (a : Agent σ) (bs : List UInt8) : List (String × Reply) × Agent σ :=
  serve b a (lines [] bs)

end ScoreRelay.Daemon
