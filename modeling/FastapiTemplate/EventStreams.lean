import FastapiTemplate.Transducers

/-!
# Event streams

The format `text/event-stream` as a client reads it: character by character, in whatever pieces the
text arrives. A line ends with LF, CR or both. A blank line ends an event, and an event without a
data line is none. The last event id and the reconnection time are left out.
-/

namespace FastapiTemplate.EventStream

structure Event where
  name : String
  data : String
  deriving DecidableEq, Repr

/-- What is known of the event that is being read: its name and its data lines. -/
structure Draft where
  name : List Char
  data : List (List Char)
  deriving DecidableEq

/-- `afterReturn`: the last character was a CR, so that an LF ends no further line. -/
structure Reader where
  line : List Char
  afterReturn : Bool
  draft : Draft
  deriving DecidableEq

namespace Draft

def empty : Draft := ⟨[], []⟩

/-- What the line says: the field before the first colon, and the value after it and one space. -/
def fieldOf (line : List Char) : List Char × List Char :=
  (line.takeWhile (· ≠ ':'),
    match line.dropWhile (· ≠ ':') with
    | ':' :: ' ' :: value => value
    | _ :: value => value
    | [] => [])

def addField (d : Draft) (field value : List Char) : Draft :=
  if field = ['e', 'v', 'e', 'n', 't'] then { d with name := value }
  else if field = ['d', 'a', 't', 'a'] then { d with data := d.data ++ [value] }
  else d

def event? (d : Draft) : Option Event :=
  if d.data = [] then none
  else some ⟨if d.name = [] then "message" else String.ofList d.name,
    String.ofList (['\n'].intercalate d.data)⟩

def addLine (d : Draft) (line : List Char) : Draft × Option Event :=
  if line = [] then (empty, d.event?)
  else (d.addField (fieldOf line).1 (fieldOf line).2, none)

end Draft

def isBreak (c : Char) : Bool := c = '\n' || c = '\r'

namespace Reader

def start : Reader := ⟨[], false, .empty⟩

def endLine (r : Reader) (afterReturn : Bool) : Reader × Option Event :=
  (⟨[], afterReturn, (r.draft.addLine r.line).1⟩, (r.draft.addLine r.line).2)

def readChar (r : Reader) (c : Char) : Reader × Option Event :=
  if c = '\r' then r.endLine true
  else if c = '\n' then
    if r.afterReturn then ({ r with afterReturn := false }, none) else r.endLine false
  else ({ r with line := r.line ++ [c], afterReturn := false }, none)

/-- The text takes the reader from one state to the other, with these events. -/
abbrev Reads : Reader → List Char → List Event → Reader → Prop := Transducer.Reads readChar

theorem reads_plain (line : List Char) (d : Draft) {text : List Char}
    (htext : ∀ c ∈ text, isBreak c = false) :
    Reads ⟨line, false, d⟩ text [] ⟨line ++ text, false, d⟩ := by
  induction text generalizing line with
  | nil =>
    rw [List.append_nil]
    exact .nil
  | cons c text ih =>
    have hc : isBreak c = false := htext c List.mem_cons_self
    rw [isBreak, Bool.or_eq_false_iff, decide_eq_false_iff_not, decide_eq_false_iff_not] at hc
    have hchar : readChar ⟨line, false, d⟩ c = (⟨line ++ [c], false, d⟩, none) := by
      rw [readChar, if_neg hc.2, if_neg hc.1]
    have hrest := ih (line ++ [c]) (fun d hd => htext d (List.mem_cons_of_mem c hd))
    rw [List.append_assoc] at hrest
    exact .skip hchar hrest

/-- A line and its LF, read from the start of a line. -/
theorem reads_line (d : Draft) {line : List Char} (hline : ∀ c ∈ line, isBreak c = false) :
    Reads ⟨[], false, d⟩ (line ++ ['\n']) (d.addLine line).2.toList
      ⟨[], false, (d.addLine line).1⟩ :=
  (reads_plain [] d hline).append (.single rfl)

end Reader

def events (text : List Char) : List Event := (Transducer.read Reader.readChar .start text).2

def Emits (text : List Char) (es : List Event) : Prop := Reader.Reads .start text es .start

namespace Emits

variable {text more : List Char} {es fs : List Event}

theorem events_eq (h : Emits text es) : events text = es := congrArg Prod.snd h

theorem nil : Emits [] [] := Transducer.Reads.nil

theorem append (h : Emits text es) (h' : Emits more fs) : Emits (text ++ more) (es ++ fs) :=
  Transducer.Reads.append h h'

end Emits

/-- What a client has read at any time is a prefix of what it will have read. -/
theorem events_prefix {text more : List Char} (h : text <+: more) :
    events text <+: events more := Transducer.read_prefix _ _ h

/-! ## Frames -/

/-- A line that begins with a colon, and a blank line. -/
def commentText (text : List Char) : List Char := ':' :: text ++ ['\n', '\n']

def eventText (name data : List Char) : List Char :=
  ['e', 'v', 'e', 'n', 't', ':', ' '] ++ name ++ ['\n'] ++
    (['d', 'a', 't', 'a', ':', ' '] ++ data ++ ['\n']) ++ ['\n']

section frames
variable {text name data : List Char}

theorem reads_blank (d : Draft) : Reader.Reads ⟨[], false, d⟩ ['\n'] d.event?.toList .start :=
  Reader.reads_line d (List.forall_mem_nil _)

theorem emits_comment (htext : ∀ c ∈ text, isBreak c = false) : Emits (commentText text) [] := by
  have hline : ∀ c ∈ ':' :: text, isBreak c = false := by
    rw [List.forall_mem_cons]
    exact ⟨rfl, htext⟩
  have hsplit : commentText text = (':' :: text ++ ['\n']) ++ ['\n'] := by
    simp [commentText]
  rw [hsplit]
  exact (Reader.reads_line .empty hline).append (reads_blank .empty)

theorem addLine_event (d : Draft) (value : List Char) :
    d.addLine (['e', 'v', 'e', 'n', 't', ':', ' '] ++ value) =
      ({ d with name := value }, none) := rfl

theorem addLine_data (d : Draft) (value : List Char) :
    d.addLine (['d', 'a', 't', 'a', ':', ' '] ++ value) =
      ({ d with data := d.data ++ [value] }, none) := rfl

theorem emits_event (hname : ∀ c ∈ name, isBreak c = false)
    (hdata : ∀ c ∈ data, isBreak c = false) : Emits (eventText name data)
      [⟨if name = [] then "message" else String.ofList name, String.ofList data⟩] := by
  have hevent : ∀ c ∈ ['e', 'v', 'e', 'n', 't', ':', ' '] ++ name, isBreak c = false := by
    simpa [isBreak] using hname
  have hline : ∀ c ∈ ['d', 'a', 't', 'a', ':', ' '] ++ data, isBreak c = false := by
    simpa [isBreak] using hdata
  have hfirst := Reader.reads_line .empty hevent
  rw [addLine_event] at hfirst
  have hsecond := Reader.reads_line ⟨name, []⟩ hline
  rw [addLine_data] at hsecond
  have hthird := reads_blank ⟨name, [data]⟩
  rw [Draft.event?, if_neg (List.cons_ne_nil _ _), List.intercalate_singleton] at hthird
  exact (hfirst.append hsecond).append hthird

end frames

end FastapiTemplate.EventStream
