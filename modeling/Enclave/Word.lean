/-!
# Words

The numbers of requests and settings are words of 64 bits. Where a sum or a product of two words is
none, the largest word stands for it.
-/

namespace Enclave.Word

/-- The largest word. -/
def largest : Nat := 2 ^ 64 - 1

/-- The sum of two words, or the largest word. -/
def addSat (a b : Nat) : Nat := min (a + b) largest

/-- The product of two words, or the largest word. -/
def mulSat (a b : Nat) : Nat := min (a * b) largest

end Enclave.Word
