import FieldQuery.DataGraph.Context
import FieldQuery.DataGraph.FieldTable

/-!
# A tree that records its visits

A data graph that uses every feature of field tables: hooks that refuse, resolvers that override
or not, collections chosen by arguments, and names that are declared more than once. Hooks and
resolvers write what they do under the key `log` of the context.
-/

set_option autoImplicit false

namespace FieldQuery.Sample

open Query DataGraph

/-- A reason to refuse: the field on which the hook refuses, `*` for any, and the text. -/
structure Refusal where
  field : String
  text : String

mutual

inductive TreeNode where
  | mk (id : Int64) (name : String) (any : Value) (prefetch : Option Value)
      (refusal : Option Refusal) (children : List TreeNode) (items : List TreeItem)

inductive TreeItem where
  | mk (label : String) (value : Value) (nodes : List TreeNode)

end

instance : Inhabited TreeNode := ⟨.mk 0 "" .null none none [] []⟩

instance : Inhabited TreeItem := ⟨.mk "" .null []⟩

namespace TreeNode

def id : TreeNode → Int64
  | .mk id _ _ _ _ _ _ => id

def name : TreeNode → String
  | .mk _ name _ _ _ _ _ => name

def any : TreeNode → Value
  | .mk _ _ any _ _ _ _ => any

def prefetch : TreeNode → Option Value
  | .mk _ _ _ prefetch _ _ _ => prefetch

def refusal : TreeNode → Option Refusal
  | .mk _ _ _ _ refusal _ _ => refusal

def children : TreeNode → List TreeNode
  | .mk _ _ _ _ _ children _ => children

def items : TreeNode → List TreeItem
  | .mk _ _ _ _ _ _ items => items

end TreeNode

namespace TreeItem

def label : TreeItem → String
  | .mk label _ _ => label

def value : TreeItem → Value
  | .mk _ value _ => value

def nodes : TreeItem → List TreeNode
  | .mk _ _ nodes => nodes

end TreeItem

inductive Vertex where
  | node (node : TreeNode)
  | item (item : TreeItem)

/-- Adds a text to the log of a context, starting a new log if there is none. -/
def logged (text : String) (context : Context) : Context :=
  let entries := ((context.get? "log").bind Value.items?).getD []
  context.insert "log" (.array (entries ++ [.string text]))

def idText (node : TreeNode) : String := Text.decimal node.id.toInt

def nameKey (node : TreeNode) : String := "name:" ++ idText node

def resolveName (node : TreeNode) : StateM Context (Resolution Value) := do
  modify (logged ("name@" ++ idText node))
  return .ofOption ((← get).get? (nameKey node))

/-- Counts up the integer `counter` of the context and gives its former value. -/
def resolveCounter : StateM Context (Resolution Value) := do
  match ((← get).get? "counter").bind Value.integer? with
  | some count =>
      modify fun context => context.insert "counter" (.integer (count + 1))
      return .override (.integer count)
  | none => return .useStored

def clamped (count : Int64) (maximum : Nat) : Nat := min count.toInt.toNat maximum

def made (id : Nat) : TreeNode := .mk (Int64.ofNat id) "made" .null none none [] []

/-- The nodes that arguments choose: the `first` few children, those of a `name`, or as many new
ones as `make` says, by the first of these that applies. -/
def chosen (node : TreeNode) (arguments : Arguments) : Resolution (List TreeNode) :=
  match (arguments.get? "first").bind ArgumentValue.integer? with
  | some count => .override (node.children.take (clamped count node.children.length))
  | none =>
      match (arguments.get? "name").bind ArgumentValue.text? with
      | some name => .override (node.children.filter fun child => child.name == name)
      | none =>
          match (arguments.get? "make").bind ArgumentValue.integer? with
          | some count => .override ((List.range (clamped count 20)).map made)
          | none => .useStored

def resolvePick (node : TreeNode) (arguments : Arguments) :
    StateM Context (Resolution (List Vertex)) := do
  let pairs := arguments.entries.map fun (key, value) => key ++ "=" ++ value.shown
  modify (logged ("pick@" ++ idText node ++ "(" ++ ",".intercalate pairs ++ ")"))
  return match chosen node arguments with
    | .override nodes => .override (nodes.map .node)
    | .useStored => .useStored

def prefetch (node : TreeNode) : Hook Context := fun fields => do
  modify (logged ("batch@" ++ idText node ++ "[" ++ ",".intercalate fields ++ "]"))
  match node.refusal with
  | some refusal =>
      if refusal.field == "*" || fields.contains refusal.field then throw refusal.text
  | none => pure ()
  match node.prefetch with
  | some value =>
      if fields.contains "name" then modify fun context => context.insert (nameKey node) value
  | none => pure ()

def nodeTable : FieldTable Context TreeNode Vertex :=
  FieldTable.empty
    |>.scalar "id" (fun node => .integer node.id)
    |>.scalarWith "name" (fun node => .string node.name) resolveName
    |>.scalar "any" TreeNode.any
    |>.scalarWith "counter" (fun _ => .integer (-1)) (fun _ => resolveCounter)
    |>.scalarWith "void" (fun _ => .string "raw") (fun _ => pure (.override .null))
    |>.collection "children" (fun node => node.children.map .node)
    |>.collectionWith "pick" (fun node => node.children.map .node) resolvePick
    |>.collection "items" (fun node => node.items.map .item)
    |>.batchResolve prefetch

/-- The fields of items, some of which are declared twice. -/
def itemTable : FieldTable Context TreeItem Vertex :=
  FieldTable.empty
    |>.scalar "label" (fun item => .string item.label)
    |>.scalar "value" TreeItem.value
    |>.collection "nodes" (fun item => item.nodes.map .node)
    |>.scalar "dup" (fun _ => .string "first")
    |>.scalar "dup" (fun _ => .string "second")
    |>.scalar "flip" (fun _ => .string "scalar")
    |>.collection "flip" (fun item => item.nodes.map .node)
    |>.collection "flop" (fun item => item.nodes.map .node)
    |>.scalar "flop" (fun _ => .string "scalar")

def tree : DataGraph Context Vertex where
  view
    | .node node => nodeTable.view node
    | .item item => itemTable.view item

end FieldQuery.Sample
