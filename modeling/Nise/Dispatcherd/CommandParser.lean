import Nise.Lib.LexicalPath
import Nise.Lib.Recognizer

/-!
# The command channel

A command is an entry of the action table with an extension, options or a blank behind it, and
may have the beginning of an HTTP request before it.  Whatever else is sent is taken as the name
of a file, up to a blank or a question mark, and the file is opened below the HTML directory if
the name ends like one of a page.
-/

namespace Nise.Dispatcherd

open Nise.Lib Nise.Lib.Recognizer

namespace CommandParser

/-- `space_p`. -/
def isSpace (c : Char) : Bool := c ∈ [' ', '\t', '\n', '\x0b', '\x0c', '\r']

/-- `blank_p`. -/
def isBlank (c : Char) : Bool := c ∈ [' ', '\t']

def spaceP : Recognizer Char := single isSpace

def chP (c : Char) : Recognizer Char := single fun other => other = c

def anychars : Recognizer Char := star (single fun _ => true)

/-- `as_lower_d` of a text. -/
def asLower (text : List Char) : Recognizer Char := fun input =>
  if (input.take text.length).map Char.toLower = text then some (input.drop text.length) else none

/-- The names of `create_action_table`. -/
def actionTable : List (List Char) :=
  ["acceptors", "ctable", "command", "connections", "rcv_conn", "models", "dispatchers",
    "identity", "opt", "anneal", "job", "status", "stats", "kill", "trace", "verbose",
    "disconnect", "d", "alive", "options", "quit"].map String.toList

/-! ## The grammar -/

def get : Recognizer Char :=
  seq (star spaceP) (seq (asLower "get".toList) (seq (plus spaceP) (chP '/')))

def boolP : Recognizer Char := choice (literal "true".toList) (literal "false".toList)

def exts : Recognizer Char :=
  seq (chP '.') (choice (literal "xml".toList)
    (choice (literal "html".toList) (literal "htm".toList)))

section

-- The recognizers of numbers, `strict_real_p` and `int_p`.
variable (strictRealP intP : Recognizer Char)

/-- A value of an option; the last choice matches everything. -/
def valueP : Recognizer Char :=
  choice (choice (choice strictRealP intP) boolP) (star (single fun c => c ≠ ',' ∧ c ≠ '&'))

def kvP : Recognizer Char :=
  separated
    (seq (star (single fun c => c ≠ '='))
      (seq (chP '=') (separated (valueP strictRealP intP) (chP ','))))
    (chP '&')

def opts : Recognizer Char := seq (chP '?') (kvP strictRealP intP)

def command : Recognizer Char :=
  seq (symbols actionTable)
    (seq (seqOr (seqOr exts (opts strictRealP intP)) spaceP) anychars)

/-- A character that may be in the name of a file. -/
def isNameChar (c : Char) : Bool := c ≠ '?' ∧ !isBlank c

/-- The text that is given to `send_file`, if a buffer is no command. -/
def unknown (buf : List Char) : Option (List Char) :=
  let rest := (get buf).getD buf
  match command strictRealP intP rest with
  | some _ => none
  | none => (star (single isNameChar) rest).map (matched rest)

end

/-! ## Files -/

/-- `iends_with`. -/
def iendsWith (text ending : List Char) : Bool :=
  (ending.map Char.toLower).isSuffixOf (text.map Char.toLower)

def htmlPath (rootPath : List Char) : List Char := rootPath ++ "/www/html/".toList

/-- The name of a file for a text. -/
def fileName (text : List Char) : List Char := if text = [] then "index.html".toList else text

/-- The path that `send_file` opens, if it does open one. -/
def sendFile (rootPath text : List Char) : Option (List Char) :=
  let filename := fileName text
  if iendsWith filename ".xml".toList || iendsWith filename ".xsl".toList ||
      iendsWith filename ".htm".toList || iendsWith filename ".html".toList then
    some (htmlPath rootPath ++ filename)
  else none

/-! ## Paths -/

/-- The path that is opened for a buffer, if there is one. -/
def opened (strictRealP intP : Recognizer Char) (rootPath buf : List Char) : Option (List Char) :=
  (unknown strictRealP intP buf).bind (sendFile rootPath)

/-- The step that a component of a path stands for. -/
def pathStep (component : List Char) : LexicalPath.Step (List Char) :=
  if component = [] ∨ component = ['.'] then .stay
  else if component = ['.', '.'] then .up
  else .down component

def pathSteps (path : List Char) : List (LexicalPath.Step (List Char)) :=
  (path.splitOn '/').map pathStep

def isAbsolute (path : List Char) : Bool := path.head? = some '/'

/-- The place of a path with `.` and `..` resolved by the text alone. -/
def pathPlace (path : List Char) : LexicalPath.Place (List Char) :=
  LexicalPath.resolve (isAbsolute path) (pathSteps path)

/-- A path is below a directory: both are absolute or both are relative, and the one is under the
other. -/
def LiesUnder (directory path : List Char) : Prop :=
  isAbsolute path = isAbsolute directory ∧
    LexicalPath.Under (pathPlace directory) (pathPlace path)

instance (directory path : List Char) : Decidable (LiesUnder directory path) :=
  inferInstanceAs (Decidable (_ ∧ _))

/-! ## What is no command -/

/-- A text begins with an entry of the action table, the longest that it begins with, and an
extension, options or a blank behind it. -/
def IsCommand (rest : List Char) : Prop :=
  ∃ length ∈ longest actionTable rest,
    (exts (rest.drop length)).isSome = true ∨
      (∃ options, rest.drop length = '?' :: options ∧ '=' ∈ options) ∨
      ∃ c ∈ (rest.drop length).head?, isSpace c = true

section

variable (strictRealP intP : Recognizer Char)

theorem head?_dropWhile_ne {options : List Char} {separator : Char} :
    (∃ c ∈ (options.dropWhile fun c => c ≠ separator).head?, decide (c = separator) = true) ↔
      separator ∈ options := by
  induction options with
  | nil => simp
  | cons c options ih =>
      by_cases here : c = separator
      · simp [here]
      · rw [List.dropWhile_cons_of_pos (by simpa using here), ih, List.mem_cons,
          or_iff_right (Ne.symm here)]

theorem isSome_kvP (options : List Char) :
    (kvP strictRealP intP options).isSome = true ↔ '=' ∈ options := by
  have values : ∀ rest, (separated (valueP strictRealP intP) (chP ',') rest).isSome = true := by
    intro rest
    rw [isSome_separated]
    exact isSome_choice rfl
  unfold kvP
  rw [isSome_separated, seq_star_single, isSome_seq values, chP, isSome_single,
    head?_dropWhile_ne]

theorem isSome_opts (input : List Char) :
    (opts strictRealP intP input).isSome = true ↔
      ∃ options, input = '?' :: options ∧ '=' ∈ options := by
  unfold opts chP
  rw [isSome_seq_iff]
  cases input with
  | nil => simp [single]
  | cons c options =>
      by_cases mark : c = '?'
      · simp [single, mark, isSome_kvP]
      · simp [single, mark]

theorem isSome_command (rest : List Char) :
    (command strictRealP intP rest).isSome = true ↔ IsCommand rest := by
  have behind : ∀ after, (seq (seqOr (seqOr exts (opts strictRealP intP)) spaceP) anychars
      after).isSome = true ↔ (exts after).isSome = true ∨
        (∃ options, after = '?' :: options ∧ '=' ∈ options) ∨
        ∃ c ∈ after.head?, isSpace c = true := by
    intro after
    rw [isSome_seq fun _ => rfl, isSome_seqOr, isSome_seqOr, isSome_opts, or_assoc, spaceP,
      isSome_single]
  unfold command IsCommand
  rw [isSome_seq_iff]
  simp only [behind, mem_symbols, exists_exists_and_eq_and]

/-- The name of a file is the text up to a question mark or a blank, whatever numbers may look
like in the options of a command. -/
theorem unknown_eq_some_iff (buf text : List Char) :
    unknown strictRealP intP buf = some text ↔
      ¬ IsCommand ((get buf).getD buf) ∧ text = ((get buf).getD buf).takeWhile isNameChar := by
  unfold unknown
  dsimp only
  generalize (get buf).getD buf = rest
  rw [← isSome_command strictRealP intP, star_single, Option.map_some, matched_dropWhile]
  cases command strictRealP intP rest with
  | none => simp [eq_comm]
  | some after => simp

end

/-! ## Where the files are -/

/-- The name goes up some levels, and comes down again through the last directories of the HTML
path that it has left. -/
def ComesBack (rootPath text : List Char) : Prop :=
  let climbed := LexicalPath.resolve false (pathSteps (fileName text))
  let directories := (pathPlace (htmlPath rootPath)).names
  (isAbsolute (htmlPath rootPath) = true ∨ climbed.ups ≤ directories.length) ∧
    directories.drop (directories.length - climbed.ups) <+: climbed.names

instance (rootPath text : List Char) : Decidable (ComesBack rootPath text) :=
  inferInstanceAs (Decidable (_ ∧ _))

theorem isAbsolute_append {directory : List Char} (nonempty : directory ≠ []) (name : List Char) :
    isAbsolute (directory ++ name) = isAbsolute directory := by
  unfold isAbsolute
  rw [List.head?_append_of_ne_nil _ nonempty]

theorem htmlPath_eq (rootPath : List Char) :
    htmlPath rootPath = (rootPath ++ "/www/html".toList) ++ ['/'] := by
  rw [List.append_assoc]
  rfl

/-- A name is followed from the HTML directory. -/
theorem pathPlace_htmlPath_append (rootPath name : List Char) :
    pathPlace (htmlPath rootPath ++ name) =
      LexicalPath.followAll (isAbsolute (htmlPath rootPath)) (pathPlace (htmlPath rootPath))
        (pathSteps name) := by
  have nonempty : htmlPath rootPath ≠ [] := by
    rw [htmlPath_eq]
    exact List.concat_ne_nil _ _
  have steps : ∀ name, pathSteps (htmlPath rootPath ++ name) =
      pathSteps (rootPath ++ "/www/html".toList) ++ pathSteps name := by
    intro name
    unfold pathSteps
    rw [htmlPath_eq, List.append_assoc, List.singleton_append, List.splitOn_append_cons_self,
      List.map_append]
  have own := steps []
  rw [List.append_nil] at own
  unfold pathPlace
  rw [isAbsolute_append nonempty, steps, own, LexicalPath.resolve_append,
    LexicalPath.resolve_append]
  rfl

/-- The text of a buffer that is taken as a name. -/
def requested (buf : List Char) : List Char := ((get buf).getD buf).takeWhile isNameChar

theorem opened_eq {strictRealP intP : Recognizer Char} {rootPath buf path : List Char}
    (opens : opened strictRealP intP rootPath buf = some path) :
    path = htmlPath rootPath ++ fileName (requested buf) := by
  obtain ⟨text, routed, sends⟩ := Option.bind_eq_some_iff.mp opens
  obtain ⟨-, rfl⟩ := (unknown_eq_some_iff strictRealP intP buf text).mp routed
  unfold sendFile at sends
  dsimp only at sends
  split at sends
  · exact (Option.some.inj sends).symm
  · cases sends

/-- A file that is opened for a buffer lies under the HTML directory exactly if its name comes
back to it. -/
theorem opened_under_html_iff (strictRealP intP : Recognizer Char)
    (rootPath buf path : List Char) (opens : opened strictRealP intP rootPath buf = some path) :
    LiesUnder (htmlPath rootPath) path ↔ ComesBack rootPath (requested buf) := by
  rw [opened_eq opens]
  have nonempty : htmlPath rootPath ≠ [] := by
    rw [htmlPath_eq]
    exact List.concat_ne_nil _ _
  unfold LiesUnder
  rw [and_iff_right (isAbsolute_append nonempty _), pathPlace_htmlPath_append,
    LexicalPath.under_followAll_iff]
  rfl

/-- Some digits, and digits with a point between them. -/
def digits : Recognizer Char := plus (single Char.isDigit)

def decimals : Recognizer Char := seq digits (seq (chP '.') digits)

theorem opened_under_html_index :
    opened decimals digits "/ise".toList "GET /index.html HTTP/1.1".toList =
        some "/ise/www/html/index.html".toList ∧
      LiesUnder (htmlPath "/ise".toList) "/ise/www/html/index.html".toList := by
  have opens : opened decimals digits "/ise".toList "GET /index.html HTTP/1.1".toList =
      some "/ise/www/html/index.html".toList := by
    decide +kernel
  exact ⟨opens, (opened_under_html_iff decimals digits _ _ _ opens).mpr (by decide +kernel)⟩

/-- A request that goes up from the HTML directory opens a file outside of it. -/
theorem opened_outside_html :
    ¬ ∀ (strictRealP intP : Recognizer Char) (rootPath buf path : List Char),
      opened strictRealP intP rootPath buf = some path → LiesUnder (htmlPath rootPath) path := by
  intro under
  have opens : opened decimals digits "/ise".toList "GET /../../etc/keys.xml HTTP/1.1".toList =
      some "/ise/www/html/../../etc/keys.xml".toList := by
    decide +kernel
  exact absurd (under decimals digits _ _ _ opens) (by decide +kernel)

end CommandParser

end Nise.Dispatcherd
