import SayLang.Syntax.Render

/-!
# Walking a tree in source order

A `Node` is any part of a tree that can be evaluated on its own. `Program.nodes` lists all of them,
each before its parts and the parts from left to right, which is the order in which they stand in
the source: the operand of a unary operator; the operands of a binary one; the condition of a
conditional and then its branches; the body of a function; the callee of a call and then its
arguments; the value of a declaration and of a return; the statements of a block. Names of
parameters and of declarations are no nodes.
-/

namespace SayLang

/-- A part of a tree that can be evaluated on its own. -/
inductive Node where
  /-- A whole program. -/
  | program (program : Program)
  /-- A statement. -/
  | statement (statement : Statement)
  /-- A block. -/
  | block (block : Block)
  /-- An expression. -/
  | expression (expression : Expression)

namespace Node

/-- The text of the token that the node is known by. -/
def literal : Node → String
  | program p => p.literal
  | statement s => s.token.literal
  | block b => b.token.literal
  | expression e => e.token.literal

/-- The node in full parentheses. -/
def render : Node → String
  | program p => p.render
  | statement s => s.render
  | block b => b.render
  | expression e => e.render

/-- The statement that the node is, if it is one. -/
def statement? : Node → Option Statement
  | statement s => some s
  | _ => none

/-- The expression that the node is, if it is one. -/
def expression? : Node → Option Expression
  | expression e => some e
  | _ => none

end Node

mutual

/-- The expression and all nodes inside it. -/
def Expression.nodes : Expression → List Node
  | node@(.unary _ operand) => .expression node :: operand.nodes
  | node@(.binary left _ right) => .expression node :: (left.nodes ++ right.nodes)
  | node@(.ifThen _ condition consequence) =>
    .expression node :: (condition.nodes ++ consequence.nodes)
  | node@(.ifElse _ condition consequence alternative) =>
    .expression node :: (condition.nodes ++ consequence.nodes ++ alternative.nodes)
  | node@(.function _ _ body) => .expression node :: body.nodes
  | node@(.call _ callee arguments) =>
    .expression node :: (callee.nodes ++ Expression.nodesOfEach arguments)
  | node@(.identifier _) | node@(.number _ _) | node@(.boolean _ _) | node@(.error _ _) =>
    [.expression node]

/-- The nodes of each expression of a list. -/
def Expression.nodesOfEach : List Expression → List Node
  | [] => []
  | expression :: rest => expression.nodes ++ Expression.nodesOfEach rest

/-- The statement and all nodes inside it. -/
def Statement.nodes : Statement → List Node
  | node@(.expression _ value) | node@(.say _ _ value) | node@(.returnOf _ value) =>
    .statement node :: value.nodes
  | node@(.bareReturn _) => [.statement node]
  | node@(.block body) => .statement node :: body.nodes

/-- The nodes of each statement of a list. -/
def Statement.nodesOfEach : List Statement → List Node
  | [] => []
  | statement :: rest => statement.nodes ++ Statement.nodesOfEach rest

/-- The block and all nodes inside it. -/
def Block.nodes : Block → List Node
  | node@(.mk _ statements) => .block node :: Statement.nodesOfEach statements

end

/-- The program and all nodes inside it. -/
def Program.nodes (program : Program) : List Node :=
  .program program :: Statement.nodesOfEach program.statements

/-- All expressions of the program, also those nested in others, in source order. -/
def Program.allExpressions (program : Program) : List Expression :=
  program.nodes.filterMap Node.expression?

theorem Statement.nodesOfEach_append (first second : List Statement) :
    nodesOfEach (first ++ second) = nodesOfEach first ++ nodesOfEach second := by
  induction first with
  | nil => simp [nodesOfEach]
  | cons _ _ ih => simp [nodesOfEach, ih]

end SayLang
