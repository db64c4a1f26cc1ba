/-!
The instances by which numbers are raised to powers and added up and bytes are compared. They are
those of the core library, whatever other library is in scope, so that a definition is the same
wherever it is read.
-/

attribute [instance (high), default_instance (high + 1)] instPowNat
attribute [instance (high)] Zero.ofOfNat0 ByteArray.instDecidableEq
