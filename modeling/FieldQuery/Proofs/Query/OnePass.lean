import FieldQuery.Query.Parse

/-!
# Reading queries in one pass

A second way to read a query, in which every character is looked at once. An explicit stack holds
what the braces read so far have opened. A brace behind a field name opens the block of a branch
and the matching brace closes it, so the text of a block is never collected and read again.

The pass only accepts or refuses. What it does with comments, names and argument lists is what a
level does with them, at whichever level is innermost.
-/

set_option autoImplicit false

namespace FieldQuery.Query.OnePass

inductive Frame where
  /-- A nameless set, whose selections belong to the level around it. -/
  | set
  /-- The block of a branch, with the selections that stand before the branch. -/
  | branch (name : String) (arguments : Arguments) (before : List Selection)

inductive Place where
  | between (pending : Pending)
  | comment (pending : Pending)
  | arguments (name : String) (start : Position) (list : ArgumentList)

/-- What has been read up to some character. -/
structure Reader where
  /-- What is open, the innermost first. -/
  frames : List Frame
  /-- The complete selections of the innermost level. -/
  selections : List Selection
  place : Place

def blocks : List Frame → Nat
  | [] => 0
  | .set :: outer => blocks outer
  | .branch _ _ _ :: outer => blocks outer + 1

/-- The selections of a level once its pending field is complete without a block. -/
def flush (selections : List Selection) : Pending → Option (List Selection)
  | .nothing => some selections
  | .named name _ _ => some (selections ++ [.leaf name])
  | .called _ _ _ => none

namespace Reader

def start : Reader := ⟨[], [], .between .nothing⟩

/-- The opening brace of the block of a branch. The level inside must not lie too deep, and
`outermost` is the depth of the level around everything that is open. -/
def openBlock (limit : DepthLimit) (outermost : Nat) (frames : List Frame)
    (selections : List Selection) (name : String) (arguments : Arguments) : Option Reader :=
  if limit.exceededBy (outermost + blocks frames + 1) then none
  else some ⟨.branch name arguments selections :: frames, [], .between .nothing⟩

def openBrace (limit : DepthLimit) (outermost : Nat) (frames : List Frame)
    (selections : List Selection) : Pending → Option Reader
  | .nothing => some ⟨.set :: frames, selections, .between .nothing⟩
  | .named name _ _ => openBlock limit outermost frames selections name .empty
  | .called name _ arguments => openBlock limit outermost frames selections name arguments

def closeBrace (frames : List Frame) (selections : List Selection) (pending : Pending) :
    Option Reader := do
  let complete ← flush selections pending
  match frames with
  | [] => none
  | .set :: outer => some ⟨outer, complete, .between .nothing⟩
  | .branch name arguments before :: outer =>
      some ⟨outer, before ++ [.branch name arguments complete], .between .nothing⟩

def openArguments (frames : List Frame) (selections : List Selection) (here : Position) :
    Pending → Option Reader
  | .named name start _ => some ⟨frames, selections, .arguments name start (.opened here)⟩
  | _ => none

def writeName (frames : List Frame) (selections : List Selection) (character : Char)
    (here : Position) : Pending → Option Reader
  | .named name start false =>
      some ⟨frames, selections, .between (.named (name.push character) start false)⟩
  | pending => do
      let complete ← flush selections pending
      some ⟨frames, complete, .between (.named (String.singleton character) here false)⟩

def stepBetween (limit : DepthLimit) (outermost : Nat) (frames : List Frame)
    (selections : List Selection) (pending : Pending) (character : Char) (here : Position) :
    Option Reader :=
  if character = '#' then some ⟨frames, selections, .comment pending.ended⟩
  else if character = ',' then do
    let complete ← flush selections pending
    some ⟨frames, complete, .between .nothing⟩
  else if Text.isBlank character then some ⟨frames, selections, .between pending.ended⟩
  else if character = '(' then openArguments frames selections here pending
  else if character = '{' then openBrace limit outermost frames selections pending
  else if character = '}' then closeBrace frames selections pending
  else if isNameCharacter character then writeName frames selections character here pending
  else none

def step (limit : DepthLimit) (outermost : Nat) (reader : Reader) (character : Char)
    (here : Position) : Option Reader :=
  match reader.place with
  | .between pending =>
      stepBetween limit outermost reader.frames reader.selections pending character here
  | .comment pending =>
      if character = '\n' then some { reader with place := .between pending } else some reader
  | .arguments name start list =>
      match list.step character here with
      | .error _ => none
      | .ok (.waiting list) => some { reader with place := .arguments name start list }
      | .ok (.closed arguments) =>
          some { reader with place := .between (.called name start arguments) }

def run (limit : DepthLimit) (outermost : Nat) (reader : Reader) (here : Position) :
    List Char → Option Reader
  | [] => some reader
  | character :: rest => do
      let next ← step limit outermost reader character here
      next.run limit outermost (here.advance character) rest

def finish (reader : Reader) : Option (List Selection) :=
  match reader.frames, reader.place with
  | [], .between pending | [], .comment pending => flush reader.selections pending
  | _, _ => none

end Reader

/-- Reads the level at a depth, whose first character stands at `origin`, and all levels in it. -/
def readLevel (limit : DepthLimit) (depth : Nat) (origin : Position) (text : String) :
    Option (List Selection) :=
  (Reader.start.run limit depth origin text.toList).bind Reader.finish

/-- Reads a whole query in one pass. -/
def read (limit : DepthLimit) (text : String) : Option (List Selection) :=
  readLevel limit 1 .start text

namespace Reader

@[simp] theorem run_nil (limit : DepthLimit) (outermost : Nat) (reader : Reader)
    (here : Position) : reader.run limit outermost here [] = some reader := rfl

theorem run_cons (limit : DepthLimit) (outermost : Nat) (reader : Reader) (here : Position)
    (character : Char) (rest : List Char) :
    reader.run limit outermost here (character :: rest) =
      (reader.step limit outermost character here).bind fun next =>
        next.run limit outermost (here.advance character) rest := rfl

theorem run_cons_of_step {limit : DepthLimit} {outermost : Nat} {reader next : Reader}
    {here : Position} {character : Char}
    (stepped : reader.step limit outermost character here = some next) (rest : List Char) :
    reader.run limit outermost here (character :: rest) =
      next.run limit outermost (here.advance character) rest := by
  rw [run_cons, stepped, Option.bind_some]

theorem run_append (limit : DepthLimit) (outermost : Nat) (reader : Reader) (here : Position)
    (front back : List Char) :
    reader.run limit outermost here (front ++ back) =
      (reader.run limit outermost here front).bind fun next =>
        next.run limit outermost (here.after front) back := by
  induction front generalizing reader here with
  | nil => rfl
  | cons character front ih =>
      rw [List.cons_append, run_cons, run_cons]
      cases reader.step limit outermost character here with
      | none => rfl
      | some next => exact ih next (here.advance character)

end Reader

/-- It does not matter whether a name is ended when it is completed. -/
theorem flush_ended (selections : List Selection) (pending : Pending) :
    flush selections pending.ended = flush selections pending := by
  cases pending <;> rfl

theorem blocks_append (inner outer : List Frame) :
    blocks (inner ++ outer) = blocks inner + blocks outer := by
  induction inner with
  | nil => simp [blocks]
  | cons frame inner ih =>
      cases frame with
      | set => exact ih
      | branch =>
          simp only [List.cons_append, blocks, ih]
          omega

namespace Reader

/-- Whether a character closes what lies around all frames of a reader. -/
def Closes (reader : Reader) (character : Char) : Prop :=
  reader.frames = [] ∧ character = '}' ∧ ∃ pending, reader.place = .between pending

/-- A reader of an inner level as it stands with more frames around it. -/
def under (reader : Reader) (outer : List Frame) : Reader :=
  { reader with frames := reader.frames ++ outer }

/-- Frames around a reader change a step only by the depth of its blocks, unless the step closes
one of those frames. -/
theorem step_under {reader : Reader} {character : Char} (inside : ¬ reader.Closes character)
    (limit : DepthLimit) (outermost : Nat) (outer : List Frame) (here : Position) :
    (reader.under outer).step limit outermost character here =
      (reader.step limit (outermost + blocks outer) character here).map (·.under outer) := by
  obtain ⟨frames, selections, place⟩ := reader
  cases place with
  | between pending =>
      simp only [step, under, stepBetween]
      split
      · rfl
      split
      · cases pending <;> rfl
      split
      · rfl
      split
      · cases pending <;> rfl
      split
      · have depth : outermost + blocks (frames ++ outer) + 1 =
            outermost + blocks outer + blocks frames + 1 := by
          rw [blocks_append]
          omega
        cases pending with
        | nothing => rfl
        | named name start ended =>
            simp only [openBrace, openBlock, depth]
            split <;> rfl
        | called name start arguments =>
            simp only [openBrace, openBlock, depth]
            split <;> rfl
      split
      · next closing =>
          cases frames with
          | nil => exact absurd ⟨rfl, closing, pending, rfl⟩ inside
          | cons frame frames => cases pending <;> cases frame <;> rfl
      split
      · cases pending with
        | nothing => rfl
        | named name start ended => cases ended <;> rfl
        | called => rfl
      · rfl
  | comment pending =>
      simp only [step, under]
      split <;> rfl
  | arguments name start list =>
      simp only [step, under]
      split <;> rfl

end Reader

end FieldQuery.Query.OnePass
