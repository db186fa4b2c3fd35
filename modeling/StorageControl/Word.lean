/-! Limits of numbers of a fixed width. -/

set_option autoImplicit false

namespace StorageControl.Word

/-- The least number that needs more than so many bits. -/
def limit (bits : Nat) : Nat := Nat.pow 2 bits

end StorageControl.Word
