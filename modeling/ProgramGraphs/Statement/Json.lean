import ProgramGraphs.Json.Variant
import ProgramGraphs.Statement

/-!
# Kinds of statements as JSON

A kind is an object that is tagged by `kind`; an instruction is one that is tagged by
`op`.  The tag of an instruction may also be given as a number, and so may that of a
kind inside a larger object.
-/

namespace ProgramGraphs

open Json (Decoder Value)
open Json.Variant (Alternative Tagged TagForm)

namespace Instruction

/-- An instruction as a JSON object. -/
def toJson : Instruction → Value
  | .binaryOp operator => .object [("op", .string "binary_op"), ("operator", .string operator)]
  | .unaryOp opcode => .object [("op", .string "unary_op"), ("opcode", .string opcode)]
  | .conditionalBranch operator =>
    .object [("op", .string "conditional_branch"), ("operator", .string operator)]
  | .invoke target => .object [("op", .string "invoke"), ("target", .string target)]
  | .new concreteType =>
    .object [("op", .string "new"), ("concrete_type", .string concreteType)]
  | .other => .object [("op", .string "other")]

/-- The instructions and how each is written. -/
def alternative : Alternative Instruction :=
  { name := "Instruction"
    tag := "op"
    variants :=
      [.withField "binary_op" "struct variant Instruction::BinaryOp" "operator"
        Json.Decode.string .binaryOp,
       .withField "unary_op" "struct variant Instruction::UnaryOp" "opcode"
        Json.Decode.string .unaryOp,
       .withField "conditional_branch" "struct variant Instruction::ConditionalBranch" "operator"
        Json.Decode.string .conditionalBranch,
       .withField "invoke" "struct variant Instruction::Invoke" "target"
        Json.Decode.string .invoke,
       .withField "new" "struct variant Instruction::New" "concrete_type"
        Json.Decode.string .new,
       .unit "other" .other] }

/-- Reads a document that holds an instruction. -/
def decoder : Decoder Instruction := alternative.decode .name 0

/-- Reads an instruction inside a value that was read as a whole before. -/
def innerDecoder : Decoder Instruction := alternative.decode .nameOrPlace 0

end Instruction

namespace StatementKind

/-- The members of a kind's JSON object. -/
def toMembers : StatementKind → List (String × Value)
  | .methodEntry => [("kind", .string "method_entry")]
  | .methodExit => [("kind", .string "method_exit")]
  | .normal instruction => [("kind", .string "normal"), ("instruction", instruction.toJson)]
  | .paramCaller => [("kind", .string "param_caller")]
  | .paramCallee => [("kind", .string "param_callee")]
  | .normalReturnCaller => [("kind", .string "normal_return_caller")]
  | .normalReturnCallee => [("kind", .string "normal_return_callee")]
  | .phi => [("kind", .string "phi")]
  | .other => [("kind", .string "other")]

/-- A kind as a JSON object. -/
def toJson (kind : StatementKind) : Value := .object kind.toMembers

/-- The kinds and how each is written. -/
def alternative : Alternative StatementKind :=
  { name := "StatementKind"
    tag := "kind"
    variants :=
      [.unit "method_entry" .methodEntry, .unit "method_exit" .methodExit,
       .withField "normal" "struct variant StatementKind::Normal" "instruction"
        Instruction.innerDecoder .normal,
       .unit "param_caller" .paramCaller, .unit "param_callee" .paramCallee,
       .unit "normal_return_caller" .normalReturnCaller,
       .unit "normal_return_callee" .normalReturnCallee, .unit "phi" .phi, .unit "other" .other] }

/-- Reads a document that holds a kind. -/
def decoder : Decoder StatementKind := alternative.decode .name 0

end StatementKind

end ProgramGraphs
