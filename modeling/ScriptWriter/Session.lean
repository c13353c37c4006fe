import ScriptWriter.Node

/-!
# Sessions

A session gives one emitter a sequence of commands. Each is answered by a reply; the emitter is
there for the next command whether the last one succeeded, failed or was aborted.
-/

namespace ScriptWriter

inductive Command where
  | write (text : String)
  | writeString (text : String)
  | writeLiteral (value : Value)
  | reset
  /-- Emits a node into the text. -/
  | emit (node : Node)
  /-- Emits a node apart. -/
  | emitApart (node : Node)
  /-- Emits a node into the text of a copy. -/
  | emitCopy (node : Node)
  /-- Asks for the descriptor of a function. -/
  | describe (function : String)
  /-- Asks for the options and the functions. -/
  | configuration

inductive Reply where
  | done
  | emitted (result : Except Stop Unit)
  /-- The text of a node emitted apart. -/
  | fragment (result : Except Stop String)
  /-- How the copy ended and its text. -/
  | copied (result : Except Stop Unit) (source : String)
  | descriptor (result : Except Stop Descriptor)
  | configuration (options : Options) (functions : FunctionTable)

namespace Emitter

/-- The reply to a command and the emitter after it. -/
def execute (e : Emitter) : Command → Reply × Emitter
  | .write text => (.done, (write text e).2)
  | .writeString text => (.done, (writeString text e).2)
  | .writeLiteral value => (.done, (writeLiteral value e).2)
  | .reset => (.done, (reset e).2)
  | .emit node =>
    let (result, e') := nested node.emit e
    (.emitted result, e')
  | .emitApart node =>
    let (result, e') := isolated node.emit e
    (.fragment result, e')
  | .emitCopy node =>
    let (result, copy) := nested node.emit e
    (.copied result copy.source, e)
  | .describe function => (.descriptor (descriptorOf function e).1, e)
  | .configuration => (.configuration e.options e.functions, e)

/-- The replies to commands given one after another, each with the emitter after it. -/
def session (e : Emitter) : List Command → List (Reply × Emitter)
  | [] => []
  | command :: rest =>
    let (reply, e') := e.execute command
    (reply, e') :: session e' rest

end Emitter

end ScriptWriter
