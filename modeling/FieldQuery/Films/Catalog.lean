import FieldQuery.Films.Detail
import FieldQuery.DataGraph.Context
import FieldQuery.DataGraph.FieldTable

/-!
# A catalog of films

The data graph on which queries are tried: a catalog of films with their comments. The hook of a
film derives the details that are asked for and stores them in the context, where the fields find
them; a film with a negative number does not exist, and its hook refuses. Hooks and resolvers share
a context until one of them meets a fault. From there on the fault stands in its place, and nothing
counts that the execution still gives.
-/

set_option autoImplicit false

namespace FieldQuery.Films

open Query DataGraph

structure Comment where
  username : String
  text : String

/-- A film, which also holds its stored comments. -/
structure Film where
  id : Int64
  comments : List Comment

structure Catalog where
  films : List Film

inductive Item where
  | catalog (catalog : Catalog)
  | film (film : Film)
  | comment (comment : Comment)

def Film.ofId (id : Int64) : Film := ⟨id, []⟩

def firstFilms (count : Int64) : List Film :=
  (List.range count.toInt.toNat).map fun id => .ofId (Int64.ofNat id)

def Catalog.ofCount (count : Int64) : Catalog := ⟨firstFilms count⟩

/-- The greatest number of films that a query can ask for. -/
def greatestCount : Int64 := 100

/-- A number decremented, unless it is the least one. -/
def predecessor (number : Int64) : Int64 :=
  if number = Int64.minValue then number else number - 1

/-- The films of a catalog: the one of a part number `p`, or else the first `count`, or else the
stored ones. -/
def resolveFilms (arguments : Arguments) : Resolution (List Item) :=
  match (arguments.get? "p").bind ArgumentValue.integer? with
  | some part => .override [.film (.ofId (predecessor part))]
  | none =>
      match (arguments.get? "count").bind ArgumentValue.integer? with
      | some count => .override ((firstFilms (max 0 (min count greatestCount))).map .film)
      | none => .useStored

/-- The context of an execution, or the fault that ended it. -/
abbrev Store := Except Fault Context

/-- A step on the context of a store. Where there is a fault, it gives another value. -/
def attempt {α : Type} (otherwise : α) (step : Context → Except Fault (α × Context)) :
    StateM Store α := fun store =>
  match store >>= step with
  | .ok (value, context) => (value, .ok context)
  | .error fault => (otherwise, .error fault)

def catalogTable : FieldTable Store Catalog Item :=
  FieldTable.empty.collectionWith "films" (fun catalog => catalog.films.map .film)
    fun _ arguments => pure (resolveFilms arguments)

/-- The seed in a context, zero if there is none. -/
def seedIn (context : Context) : Int64 := ((context.get? "seed").bind Value.integer?).getD 0

def detailKey (film : Int64) (field : String) : String :=
  "film:" ++ Text.decimal film.toInt ++ ":" ++ field

/-- Stores those of the fields that are details of a film with a part number. -/
def storeDerived (seed film part : Int64) (fields : List String) (context : Context) :
    Except Fault Context :=
  fields.foldlM
    (fun context field => do
      match ← derive seed film part field with
      | some detail => return context.insert (detailKey film field) detail
      | none => return context)
    context

def storeAsked (film : Film) (fields : List String) : StateM Store Unit :=
  attempt () fun context => do
    let part ← partNumber film.id
    let stored ← storeDerived (seedIn context) film.id part fields context
    return ((), stored)

/-- The hook of a film: stores the details asked for, if the film exists. -/
def prefetch (film : Film) : Hook Store := fun fields =>
  if film.id < 0 then
    throw ("film part " ++ Text.decimal (film.id.toInt + 1) ++ " does not exist")
  else liftM (storeAsked film fields)

def prefetched (field : String) (film : Film) : StateM Store (Resolution Value) :=
  attempt .useStored fun context =>
    return (.ofOption (context.get? (detailKey film.id field)), context)

def resolveComments (film : Film) : Except Fault (List Comment) := do
  let part ← partNumber film.id
  return [
    ⟨"Spiderman fan", "Part " ++ Text.decimal part.toInt ++ " is my favourite!"⟩,
    ⟨"Spiderman", "Aw, I have so many fans!"⟩]

/-- The comments of a film in place of the stored ones. -/
def givenComments (film : Film) : StateM Store (Resolution (List Item)) :=
  attempt .useStored fun context => do
    let comments ← resolveComments film
    return (.override (comments.map .comment), context)

def filmTable : FieldTable Store Film Item :=
  FieldTable.empty
    |>.scalar "id" (fun film => .integer film.id)
    |>.scalarWith "name" (fun _ => .null) (prefetched "name")
    |>.scalarWith "description" (fun _ => .null) (prefetched "description")
    |>.scalarWith "releaseYear" (fun _ => .null) (prefetched "releaseYear")
    |>.collectionWith "comments" (fun film => film.comments.map .comment)
      (fun film _ => givenComments film)
    |>.batchResolve prefetch

def commentTable : FieldTable Store Comment Item :=
  FieldTable.empty
    |>.scalar "username" (fun comment => .string comment.username)
    |>.scalar "text" (fun comment => .string comment.text)

def graph : DataGraph Store Item where
  view
    | .catalog catalog => catalogTable.view catalog
    | .film film => filmTable.view film
    | .comment comment => commentTable.view comment

end FieldQuery.Films
