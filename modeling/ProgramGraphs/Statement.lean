import ProgramGraphs.Class.Info
import ProgramGraphs.Position

/-!
# Statements of a dependency graph

A statement is a program point of some kind.  The kinds that carry meaning for a reader
of the exported graph have a *feature*, a short text that can label the edges that leave
the statement.
-/

namespace ProgramGraphs

/-- The instruction behind a normal statement, as far as labels need it. -/
inductive Instruction where
  /-- A binary operation. -/
  | binaryOp (operator : String)
  /-- A unary operation. -/
  | unaryOp (opcode : String)
  /-- A conditional branch. -/
  | conditionalBranch (operator : String)
  /-- A call. -/
  | invoke (target : String)
  /-- An allocation. -/
  | new (concreteType : String)
  /-- Any other instruction. -/
  | other
  deriving DecidableEq, Repr, Inhabited

/-- The kind of program point that a statement stands for. -/
inductive StatementKind where
  /-- The entry of a method. -/
  | methodEntry
  /-- The exit of a method. -/
  | methodExit
  /-- An instruction. -/
  | normal (instruction : Instruction)
  /-- An argument, seen from the caller. -/
  | paramCaller
  /-- An argument, seen from the callee. -/
  | paramCallee
  /-- A normal return, seen from the caller. -/
  | normalReturnCaller
  /-- A normal return, seen from the callee. -/
  | normalReturnCallee
  /-- A join of values. -/
  | phi
  /-- Any other program point. -/
  | other
  deriving DecidableEq, Repr, Inhabited

/-- What a dependency graph knows about one statement. -/
structure StatementInfo where
  kind : StatementKind := .other
  /-- The name of the method that contains the statement. -/
  method : String := ""
  /-- The class that declares that method. -/
  declaringClass : ClassInfo := {}
  position : Position := .unknown
  deriving DecidableEq, Repr, Inhabited

namespace Instruction

/-- The part of an instruction that a label shows. -/
def feature? : Instruction → Option String
  | .binaryOp operator => some operator
  | .unaryOp opcode => some opcode
  | .conditionalBranch operator => some operator
  | .invoke target => some target
  | .new concreteType => some concreteType
  | .other => none

end Instruction

namespace StatementKind

/-- The feature of a statement of this kind in a method of the given name.  Points that
only pass values on are all `flow`. -/
def feature? (kind : StatementKind) (method : String) : Option String :=
  match kind with
  | .methodEntry => some ("entry " ++ method)
  | .methodExit => some ("exit " ++ method)
  | .normal instruction => instruction.feature?
  | .paramCaller | .paramCallee | .normalReturnCaller | .normalReturnCallee | .phi => some "flow"
  | .other => none

end StatementKind

end ProgramGraphs
