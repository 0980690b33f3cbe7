import ThemeRules.Yaml.Tree

/-!
# ThemeRules.Yaml.Node

The content of a YAML document. Every alias holds the node it stands for, and tags stay with their
nodes. Two limits keep documents finite that refer to themselves: collections may nest 128 deep, and
a document may use a hundred aliases for each of its nodes. What lies beyond a limit is a node of its
own; it is an error only for those who read it.
-/

namespace ThemeRules
namespace Yaml

inductive Limit where
  | nesting
  | repetition
  deriving DecidableEq

inductive Node where
  | scalar (tag : Option String) (isPlain : Bool) (text : String)
  | sequence (tag : Option String) (items : List Node)
  | mapping (tag : Option String) (entries : List (Node × Node))
  | alias (target : Node)
  | beyond (limit : Limit)
  deriving Inhabited

namespace Tree

mutual

/-- The nodes that carry an anchor, by its number, in the order of the document. -/
def anchored : Tree → List (Nat × Tree)
  | .alias _ => []
  | .scalar mark isPlain text => mark.anchor.toList.map fun id => (id, .scalar mark isPlain text)
  | .sequence mark items =>
    mark.anchor.toList.map (fun id => (id, .sequence mark items)) ++ anchoredItems items
  | .mapping mark entries =>
    mark.anchor.toList.map (fun id => (id, .mapping mark entries)) ++ anchoredEntries entries

def anchoredItems : List Tree → List (Nat × Tree)
  | [] => []
  | item :: rest => anchored item ++ anchoredItems rest

def anchoredEntries : List (Tree × Tree) → List (Nat × Tree)
  | [] => []
  | (key, value) :: rest => anchored key ++ anchored value ++ anchoredEntries rest

end

mutual

/-- The size of a document: one for every scalar and alias, two for every collection. -/
def size : Tree → Nat
  | .alias _ => 1
  | .scalar .. => 1
  | .sequence _ items => 2 + sizeItems items
  | .mapping _ entries => 2 + sizeEntries entries

def sizeItems : List Tree → Nat
  | [] => 0
  | item :: rest => size item + sizeItems rest

def sizeEntries : List (Tree × Tree) → Nat
  | [] => 0
  | (key, value) :: rest => size key + size value + sizeEntries rest

end

/-- Replaces aliases by what they stand for. `find` looks an anchor up, `limit` is how many aliases
may be used, `depth` how deep collections may still nest; the state counts the aliases. -/
def expand (find : Nat → Option Tree) (limit : Nat) : (depth : Nat) → Tree → StateM Nat Node
  | 0, tree => do
    let leaf : Tree → Node
      | .scalar mark isPlain text => .scalar mark.tag isPlain (.ofList text)
      | _ => .beyond .nesting
    match tree with
    | .alias id =>
      modify (· + 1)
      if limit < (← get) then return .beyond .repetition
      else return .alias (((find id).map leaf).getD (.beyond .repetition))
    | tree => return leaf tree
  | depth + 1, tree => do
    let content : Tree → StateM Nat Node
      | .scalar mark isPlain text => return .scalar mark.tag isPlain (.ofList text)
      | .sequence mark items => return .sequence mark.tag (← items.mapM (expand find limit depth))
      | .mapping mark entries => do
        let entries ← entries.mapM fun (key, value) => do
          return (← expand find limit depth key, ← expand find limit depth value)
        return .mapping mark.tag entries
      | .alias _ => return .beyond .repetition
    match tree with
    | .alias id =>
      modify (· + 1)
      if limit < (← get) then return .beyond .repetition
      else
        match find id with
        | some target => return .alias (← content target)
        | none => return .beyond .repetition
    | tree => content tree

/-- The content of a whole document. Of several nodes with one anchor number the last one counts. -/
def resolve (tree : Tree) : Node :=
  let anchors := tree.anchored.reverse
  (tree.expand (fun id => anchors.lookup id) (100 * tree.size) 128 |>.run 0).1

end Tree

namespace Node

/-- A document without any content is an empty scalar. -/
def nothing : Node := .scalar none true ""

def ofText? (text : String) : Option Node :=
  match (Token.scan text.toList).bind Tree.ofTokens? with
  | none => none
  | some none => some nothing
  | some (some tree) => some tree.resolve

end Node
end Yaml
end ThemeRules
