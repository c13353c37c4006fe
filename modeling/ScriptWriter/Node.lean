import ScriptWriter.Expr.Emit

/-!
# Nodes

Whatever can be emitted: an expression, a node shared by reference, which is emitted as it is, or
a script of operations on the emitter. A script may open further nodes, write them apart, and
handle their errors and aborts.
-/

namespace ScriptWriter

mutual

inductive Node where
  | expr (e : Expr)
  /-- A node behind a reference. It opens no level of its own. -/
  | shared (node : Node)
  | script (ops : List Op)

/-- One operation of a script. -/
inductive Op where
  | write (text : String)
  | writeString (text : String)
  | writeLiteral (value : Value)
  /-- Writes the descriptor of a function. -/
  | writeDescriptor (function : String)
  | writeDepth
  /-- Writes the length of the text in bytes. -/
  | writeLength
  /-- Emits the node into the text. -/
  | emit (node : Node)
  /-- Emits the node apart, then adds its text. -/
  | emitApart (node : Node)
  /-- Emits the node apart and drops its text. -/
  | discard (node : Node)
  /-- Emits the node into the text; after an error the given text follows what was written. -/
  | attempt (node : Node) (text : String)
  /-- Emits the node apart and adds its text, or the given one after an error. -/
  | attemptApart (node : Node) (text : String)
  /-- Emits the node into the text; after an abort its message follows. -/
  | guarded (node : Node)
  | reset
  | fail (message : String)
  | abort (message : String)

end

open Emitter

mutual

def Node.emit : Node → EmitM Unit
  | .expr e => e.emit
  | .shared node => node.emit
  | .script ops => Op.runAll ops

def Op.run : Op → EmitM Unit
  | .write text => Emitter.write text
  | .writeString text => Emitter.writeString text
  | .writeLiteral value => Emitter.writeLiteral value
  | .writeDescriptor function => do Emitter.write (Descriptor.compact (← descriptorOf function))
  | .writeDepth => do Emitter.write (intText (← get).depth.toNat)
  | .writeLength => do Emitter.write (intText (← get).source.utf8ByteSize)
  | .emit node => nested node.emit
  | .emitApart node => do Emitter.write (← isolated node.emit)
  | .discard node => do let _ ← isolated node.emit
  | .attempt node text => onError (nested node.emit) fun _ => Emitter.write text
  | .attemptApart node text => do
    Emitter.write (← onError (isolated node.emit) fun _ => pure text)
  | .guarded node =>
    onAbort (nested node.emit) fun message => Emitter.write ("<panic:" ++ message ++ ">")
  | .reset => Emitter.reset
  | .fail message => Emitter.fail (.reported message)
  | .abort message => Emitter.abort message

def Op.runAll : List Op → EmitM Unit
  | [] => pure ()
  | op :: rest => do
    op.run
    Op.runAll rest

end

end ScriptWriter
