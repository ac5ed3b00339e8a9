import Abacus.Prompt

/-!
# The command line

The program is called with options, and with a file or a source text, or with neither to start the
prompt. This file fixes

* what the arguments ask for (`Invocation.ofArguments`): they are read from left to right, and the
  first one that is wrong, or that asks for the version, decides;
* what the program answers (`Response`): what it writes to its two outputs, and its exit code.

The log goes to the standard output as it arises, and errors of the log to the error output. How
much of it is shown depends on how often the option `-d` was given.
-/

namespace Abacus

/-! ## 1. Arguments -/

/-- What the arguments have asked for so far. -/
structure Arguments where
  /-- The file to run. -/
  file? : Option String
  /-- The source text to run. -/
  source? : Option String
  /-- How often debug output was asked for. -/
  debug : Nat
deriving DecidableEq

/-- Why the arguments are not read to their end. -/
inductive Refusal where
  /-- The arguments are wrong. -/
  | usage
  /-- The version was asked for. -/
  | version
deriving DecidableEq

namespace Arguments

/-- No argument was given. -/
def none : Arguments := ⟨.none, .none, 0⟩

/-- A source text, which may be given once. -/
def giveSource (a : Arguments) (source : String) : Except Refusal Arguments :=
  match a.source? with
  | .none => .ok { a with source? := some source }
  | some _ => .error .usage

/-- A file, which may be given once and has a name. -/
def giveFile (a : Arguments) (file : String) : Except Refusal Arguments :=
  match a.file? with
  | .none => if file.isEmpty then .error .usage else .ok { a with file? := some file }
  | some _ => .error .usage

/-- One more level of debug output. -/
def giveDebug (a : Arguments) : Arguments := { a with debug := a.debug + 1 }

/-- The text of an option's value, which may be set off by an equals sign. -/
def attached : List Char → String
  | '=' :: value => String.ofList value
  | value => String.ofList value

/-- Reads options of one letter that stand behind one dash. Gives the arguments, and whether the
    last option still lacks its value. -/
def readLetters (a : Arguments) : List Char → Except Refusal (Arguments × Bool)
  | [] => .ok (a, false)
  | 'd' :: rest => readLetters a.giveDebug rest
  | 'V' :: _ => .error .version
  | ['e'] => .ok (a, true)
  | 'e' :: value =>
    match a.giveSource (attached value) with
    | .ok a => .ok (a, false)
    | .error refusal => .error refusal
  | _ => .error .usage

/-- Reads an option that stands behind two dashes. -/
def readWord (a : Arguments) (word : List Char) : Except Refusal (Arguments × Bool) :=
  if word = "debug".toList then .ok (a.giveDebug, false)
  else if word = "version".toList then .error .version
  else if word = "eval".toList then .ok (a, true)
  else if "eval=".toList.isPrefixOf word then
    match a.giveSource (String.ofList (word.drop 5)) with
    | .ok a => .ok (a, false)
    | .error refusal => .error refusal
  else .error .usage

/-- What an argument is by its form. -/
inductive Form where
  /-- Two dashes alone: no options follow. -/
  | separator
  | word (cs : List Char)
  | letters (cs : List Char)
  /-- No option. A dash alone is none. -/
  | plain
deriving DecidableEq

/-- The form of an argument. -/
def form (argument : String) : Form :=
  match argument.toList with
  | ['-', '-'] => .separator
  | '-' :: '-' :: cs => .word cs
  | ['-'] => .plain
  | '-' :: cs => .letters cs
  | _ => .plain

/-- Reads files behind the separator. -/
def readFiles (a : Arguments) : List String → Except Refusal Arguments
  | [] => .ok a
  | argument :: rest =>
    match a.giveFile argument with
    | .ok a => readFiles a rest
    | .error refusal => .error refusal

/-- Reads arguments. While an option lacks its value, the next argument must be no option. -/
def read (a : Arguments) (lacksValue : Bool) : List String → Except Refusal Arguments
  | [] => if lacksValue then .error .usage else .ok a
  | argument :: rest =>
    match form argument, lacksValue with
    | .plain, true =>
      match a.giveSource argument with
      | .ok a => read a false rest
      | .error refusal => .error refusal
    | _, true => .error .usage
    | .separator, false => readFiles a rest
    | .plain, false =>
      match a.giveFile argument with
      | .ok a => read a false rest
      | .error refusal => .error refusal
    | .word cs, false =>
      match a.readWord cs with
      | .ok (a, lacksValue) => read a lacksValue rest
      | .error refusal => .error refusal
    | .letters cs, false =>
      match a.readLetters cs with
      | .ok (a, lacksValue) => read a lacksValue rest
      | .error refusal => .error refusal

/-- The levels of the log that are shown. Errors always are. -/
def threshold (a : Arguments) : Threshold :=
  match a.debug with
  | 0 => .upTo .error
  | 1 => .upTo .info
  | 2 => .upTo .debug
  | _ => .upTo .trace

end Arguments

/-! ## 2. Invocations -/

/-- What the program is asked to do. -/
inductive Invocation where
  /-- The arguments are wrong. -/
  | usage
  | version
  | source (text : String) (shown : Threshold)
  | file (path : String) (shown : Threshold)
  | prompt (shown : Threshold)
deriving DecidableEq

namespace Invocation

/-- What the arguments ask for. A file and a source text exclude each other. -/
def ofArguments (arguments : List String) : Invocation :=
  match Arguments.none.read false arguments with
  | .error .usage => .usage
  | .error .version => .version
  | .ok a =>
    match a.source?, a.file? with
    | some _, some _ => .usage
    | some text, none => .source text a.threshold
    | none, some path => .file path a.threshold
    | none, none => .prompt a.threshold

end Invocation

/-! ## 3. Responses -/

/-- What the program writes, and its exit code. -/
structure Response where
  code : UInt32
  out : String
  err : String
deriving DecidableEq

namespace Response

/-- Nothing is written, and nothing went wrong. -/
def silent : Response := ⟨0, "", ""⟩

/-- Writes a line to the standard output. -/
def print (r : Response) (line : String) : Response := { r with out := r.out ++ line ++ "\n" }

/-- Writes a line to the error output. -/
def warn (r : Response) (line : String) : Response := { r with err := r.err ++ line ++ "\n" }

/-- The program's version. -/
def version : String := "0.1.0"

/-- Writes an event of the log. Errors and what is of general interest come without their source. -/
def logEvent (r : Response) (event : Event) : Response :=
  match event.level with
  | .error => r.warn s!"[ERROR] {event.message}"
  | .warn => r.print s!"[WARN] {event.message}"
  | .info => r.print s!"[INFO] {event.message}"
  | .debug => r.print s!"[DEBUG] (1) {event.source}: {event.message}"
  | .trace => r.print s!"[TRACE] (1) {event.source}: {event.message}"

/-- Writes the events of a log that are shown. -/
def logAll (r : Response) (shown : Threshold) (log : Array Event) : Response :=
  (shown.select log).foldl logEvent r

@[simp] theorem logAll_off (r : Response) (log : Array Event) : r.logAll .off log = r := by
  have hnone : Threshold.off.select log = [] := by
    rw [Threshold.select, List.filter_eq_nil_iff]
    intro event _ hadmitted
    cases hadmitted
  rw [logAll, hnone]
  rfl

/-- Writes printed values, one to a line. -/
def printAll (r : Response) (printed : List Printed) : Response :=
  printed.foldl (fun r p => r.print p.text) r

/-- Ends with an error. -/
def failWith (r : Response) (message : String) : Response :=
  { r.warn ("Error: " ++ message) with code := 1 }

/-- The answer to wrong arguments. -/
def ofUsage : Response :=
  { silent.warn "usage: scalc [-d]... [-V] [-e SOURCE | FILE]" with code := 2 }

/-- The answer to the question for the version. -/
def ofVersion : Response := silent.print ("scalc " ++ version)

/-- Runs a source text. -/
def ofSource (text : String) (shown : Threshold) : Response :=
  let report := run text
  let logged := silent.logAll shown report.log
  match report.result with
  | .ok printed => logged.printAll printed
  | .error error => logged.failWith error.message

/-! ## 4. Files -/

/-- Why a file has no source text. -/
inductive ReadFailure where
  | notFound
  | denied
  /-- The path goes on behind a file. -/
  | notDirectory
  | isDirectory
  /-- The path, or a name in it, is longer than the system allows. -/
  | nameTooLong
  /-- The bytes of the file are no text. -/
  | notText
  /-- Any other reason the system gives. -/
  | other (reason : String)
deriving DecidableEq

/-- The wording of the failure. -/
def ReadFailure.message : ReadFailure → String
  | notFound => "No such file or directory (os error 2)"
  | denied => "Permission denied (os error 13)"
  | notDirectory => "Not a directory (os error 20)"
  | isDirectory => "Is a directory (os error 21)"
  | nameTooLong => "File name too long (os error 36)"
  | notText => "stream did not contain valid UTF-8"
  | other reason => reason

/-- The failure with the number that the system gives it. -/
def ReadFailure.ofNumber? : Nat → Option ReadFailure
  | 2 => some notFound
  | 13 => some denied
  | 20 => some notDirectory
  | 21 => some isDirectory
  | 36 => some nameTooLong
  | _ => none

/-- The text of a file with the given bytes. -/
def decodeFile (bytes : ByteArray) : Except ReadFailure String :=
  match String.fromUTF8? bytes with
  | some text => .ok text
  | none => .error .notText

/-- Runs the source text of a file. -/
def ofFile (path : String) (content : Except ReadFailure ByteArray) (shown : Threshold) :
    Response :=
  match content with
  | .error failure => unread failure
  | .ok bytes =>
    match decodeFile bytes with
    | .error failure => unread failure
    | .ok text => ofSource text shown
where
  /-- The answer if the file could not be read. -/
  unread (failure : ReadFailure) : Response :=
    silent.failWith s!"Failed to read {path}\n\nCaused by:\n    {failure.message}"

/-! ## 5. The prompt -/

/-- The greeting at the prompt. -/
def greeting : Response :=
  ((silent.print ("scalc v" ++ version)).print "Type 'quit' or press Ctrl-D to quit").print ""

/-- Writes what an entry gave. -/
def printReport (r : Response) (shown : Threshold) (report : Report) : Response :=
  let logged := r.logAll shown report.log
  match report.result with
  | .ok printed => logged.printAll printed
  | .error error => logged.warn error.message

/-- Without the log an entry that ends shows what it printed, and nothing else. -/
theorem printReport_off (r : Response) {report : Report} {printed : List Printed}
    (h : report.result = .ok printed) : r.printReport .off report = r.printAll printed := by
  rw [printReport, logAll_off, h]

/-- Reads and evaluates entries until the input ends or an entry asks for it. -/
def promptFrom (r : Response) (shown : Threshold) (session : Session) (ls : List Prompt.Line) :
    Response :=
  let waiting := r.logAll shown #[.awaited]
  match _h : Prompt.readEntry [] ls with
  | (.endOfInput, _) => waiting.print "quit"
  | (.unreadable, _) =>
    (waiting.logAll shown #[.unreadable ReadFailure.notText.message]).print "quit"
  | (.entry cs, rest) =>
    let logged := waiting.logAll shown #[.entered (String.ofList cs)]
    if Prompt.isQuit cs then logged
    else
      let report := session.eval (String.ofList (Prompt.complete cs))
      promptFrom (logged.printReport shown report) shown report.session rest
termination_by ls.length
decreasing_by exact Prompt.readEntry_rest_lt _h

/-- Runs the prompt on an input. -/
def ofPrompt (input : ByteArray) (shown : Threshold) : Response :=
  greeting.promptFrom shown Session.new (Prompt.lines input)

end Response

/-- The response to an invocation. Of the file's content and the input only what the invocation asks
    for is looked at. -/
def Invocation.respond (invocation : Invocation) (content : Except Response.ReadFailure ByteArray)
    (input : ByteArray) : Response :=
  match invocation with
  | .usage => .ofUsage
  | .version => .ofVersion
  | .source text shown => .ofSource text shown
  | .file path shown => .ofFile path content shown
  | .prompt shown => .ofPrompt input shown

end Abacus
