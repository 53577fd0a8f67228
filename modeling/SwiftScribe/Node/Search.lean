import SwiftScribe.Node.Basic

/-!
# Searching the control flow

Whether some statement inside a statement is of a certain sort. The search follows blocks, branches,
loops, switches and tries; it does not enter functions and classes.
-/

namespace SwiftScribe

mutual
/-- Whether `hit` holds of a node or of a statement inside it; `hit` is told whether a loop inside
the node has been entered. -/
def Node.search (hit : Node → Bool → Bool) (inLoop : Bool) : Node → Bool
  | node@(.blockStatement body) => hit node inLoop || searchAll hit inLoop body
  | node@(.ifStatement _ consequent alternate) =>
    hit node inLoop || consequent.search hit inLoop
      || (match alternate with | some other => other.search hit inLoop | none => false)
  | node@(.labeledStatement _ body) => hit node inLoop || body.search hit inLoop
  | node@(.withStatement _ body) => hit node inLoop || body.search hit inLoop
  | node@(.whileStatement _ body) => hit node inLoop || body.search hit true
  | node@(.doWhileStatement body _) => hit node inLoop || body.search hit true
  | node@(.forStatement _ _ _ body) => hit node inLoop || body.search hit true
  | node@(.forInStatement _ _ body _) => hit node inLoop || body.search hit true
  | node@(.forOfStatement _ _ body) => hit node inLoop || body.search hit true
  | node@(.switchStatement _ cases) => hit node inLoop || searchCases hit inLoop cases
  | node@(.tryStatement block handler finalizer) =>
    hit node inLoop || searchAll hit inLoop block
      || (match handler with | some ⟨_, body⟩ => searchAll hit inLoop body | none => false)
      || (match finalizer with | some body => searchAll hit inLoop body | none => false)
  | node => hit node inLoop

/-- The search in every statement of a list. -/
def searchAll (hit : Node → Bool → Bool) (inLoop : Bool) : List Node → Bool
  | [] => false
  | node :: rest => node.search hit inLoop || searchAll hit inLoop rest

/-- The search in every case of a switch. -/
def searchCases (hit : Node → Bool → Bool) (inLoop : Bool) : List SwitchCase → Bool
  | [] => false
  | ⟨_, consequent⟩ :: rest => searchAll hit inLoop consequent || searchCases hit inLoop rest
end

/-- Whether a node is a `return` with a value. -/
def Node.isReturnOfValue : Node → Bool
  | .returnStatement (some _) => true
  | _ => false

/-- Whether a node may skip to the next iteration of the loop around the search: a `continue` that
belongs to no loop inside, or one with a label, which may name the loop outside. -/
def Node.isContinueOutwards : Node → Bool → Bool
  | .continueStatement label, inLoop => !inLoop || label.isSome
  | _, _ => false

/-- **Whether the body of a function hands a value back** somewhere. -/
def returnsValue (body : List Node) : Bool := searchAll (fun node _ => node.isReturnOfValue) false body

/-- **Whether the body of a loop can skip to its next iteration.** -/
def Node.containsContinue (body : Node) : Bool := body.search Node.isContinueOutwards false

end SwiftScribe
