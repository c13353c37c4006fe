/-!
# Emitter options

How string literals are escaped and how deeply nodes may nest.
-/

namespace ScriptWriter

structure Options where
  /-- A dollar sign in a string literal is escaped. -/
  escapeDollar : Bool := true
  /-- Line breaks and the two Unicode separators in a string literal are escaped. -/
  escapeLineTerminators : Bool := false
  /-- The nodes that may be open at once. -/
  maxDepth : UInt32 := 1000
deriving DecidableEq

namespace Options

def withEscapeDollar (o : Options) (on : Bool) : Options := { o with escapeDollar := on }

def withEscapeLineTerminators (o : Options) (on : Bool) : Options :=
  { o with escapeLineTerminators := on }

def withMaxDepth (o : Options) (limit : UInt32) : Options := { o with maxDepth := limit }

end Options

end ScriptWriter
