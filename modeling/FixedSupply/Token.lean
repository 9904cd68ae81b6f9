import FixedSupply.Bytes

/-!
# The token and its storage layout

The name of the token and the keys under which the ledger keeps its state. A balance lives under the
32 bytes of its address; both keys of the ledger have 18 bytes, so neither is an account.
-/

namespace FixedSupply.Token

def name : String := "Ledger Token"

def symbol : String := "LDG"

/-- The key of the minted supply. -/
def supplyKey : Bytes := Bytes.ofString "ledger.totalSupply"

/-- The key of the mark that the supply was minted. -/
def mintedKey : Bytes := Bytes.ofString "ledger.initialized"

/-- The value of the mark that the supply was minted. -/
def mintedFlag : Bytes := [1]

/-- The key of an account's balance is the address itself. -/
def balanceKey (address : Address) : Bytes := address.bytes

end FixedSupply.Token
