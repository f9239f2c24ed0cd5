import NativeBinding.Session.Script

/-! # Actions

A small language for the methods of handlers: a list of commands with operands, each of which yields
a value. `Action.script` gives the script of a list.
-/

set_option autoImplicit false

namespace NativeBinding.Session

inductive Operand where
  | value (value : Value)
  | argument (index : Nat)
  /-- A field of a record that was given as an argument; null when there is none. -/
  | argumentField (index : Nat) (fieldName : String)
  | globalValue (name : String)

inductive Command where
  | print (operand : Operand)
  | printArguments
  | set (name : String) (operand : Operand)
  | remove (name : String)
  | bump (name : String) (amount : Int64)
  | raise (message : String)
  | panic (message : String)
  | invoke (api method : String) (operands : List Operand)
  | init (api : String)
  | release (api : String)
  | register (api spi : String)
  | dropHandler (handler : String)
  | newRecord (name : String) (fields : List (String × Operand))
  | enter
  | dispatch (bridge hook : String) (args : List NativeArg)
  /-- Ends the list with a value. -/
  | finish (operand : Operand)

/-- A command, the global that keeps its value, and whether its errors are caught. -/
structure Action where
  command : Command
  into : Option String := none
  catches : Bool := false

def Operand.script (args : List Value) : Operand → Script Value
  | .value v => .done v
  | .argument index =>
    match args[index]? with
    | some v => .done v
    | none => .raise (.raised s!"no argument {index}")
  | .argumentField index fieldName =>
    .done (((args[index]?).bind Value.asRecord?).bind (·.get? fieldName) |>.getD .null)
  | .globalValue name => Script.ask (.get name)

def setFields (args : List Value) (r : Record) : List (String × Operand) → Script Value
  | [] => .done r.toValue
  | (name, operand) :: rest => do
    let value ← operand.script args
    match r.set? name value with
    | some r => setFields args r rest
    | none => .raise (.marshal (.unknownField r.typeName name))

def Command.script (args : List Value) : Command → Script Value
  | .print operand => do Script.ask (.print (← operand.script args).display)
  | .printArguments => do
    args.forM fun value => do let _ ← Script.ask (.print value.display)
    pure (.int (Int64.ofInt args.length))
  | .set name operand => do Script.ask (.set name (← operand.script args))
  | .remove name => Script.ask (.remove name)
  | .bump name amount => Script.ask (.bump name amount)
  | .raise message => .raise (.raised message)
  | .panic message => .panic message
  | .invoke api method operands => do
    let values ← operands.mapM (·.script args)
    Script.ask (.invoke api method values)
  | .init api => Script.ask (.init api)
  | .release api => Script.ask (.release api)
  | .register api spi => Script.ask (.register api spi)
  | .dropHandler handler => Script.ask (.dropHandler handler)
  | .newRecord name fields => do
    match (← Script.ask (.newRecord name)).asRecord? with
    | some r => setFields args r fields
    | none => pure .null
  | .enter => Script.ask .enter
  | .dispatch bridge hook args => Script.ask (.dispatch bridge hook args)
  | .finish operand => operand.script args

/-- Reports a caught error and goes on with null. -/
def Script.report (error : ScriptError) : Script Value := do
  let _ ← Script.ask (.print s!"caught {error.kind}: {error.message}")
  pure .null

def Action.step (args : List Value) (a : Action) : Script (Value × Bool) := do
  let last := match a.command with
    | .finish _ => true
    | _ => false
  let body := do pure (← a.command.script args, last)
  let result ← if a.catches then body.catchError fun e => do pure (← Script.report e, false)
    else body
  if let some name := a.into then let _ ← Script.ask (.set name result.1)
  pure result

/-- The script of a list of actions; a list that runs out yields null. -/
def Action.script (args : List Value) : List Action → Script Value
  | [] => .done .null
  | a :: rest => do
    let (value, last) ← a.step args
    if last then pure value else Action.script args rest

end NativeBinding.Session
