import ZkSymbiotic.Types

/-!
# ABI encodings

The words, payloads and logs that the contracts and the host exchange.

* `encodeDeposit`, `decodeDeposit`   `(address, uint256)`, the payload of a bridge message;
* `decodeDeposit_encode`             what is encoded is decoded;
* `TokensLocked.encodeLog`           the event of a deposit as a log.
-/

namespace ZkSymbiotic

/-! ## words -/

def uintWord (x : U256) : Bytes := beBytes 32 x.toNat

def addressWord (address : Address) : Bytes := List.replicate 12 0 ++ address.bytes

/-- the number in the first 32 bytes -/
def readUint (bytes : Bytes) : U256 := BitVec.ofNat 256 (ofBe (bytes.take 32))

/-- the last 20 bytes of a word -/
def wordAddress (word : B256) : Address :=
  ⟨word.bytes.drop 12, by rw [List.length_drop, word.len]⟩

theorem uintWord_length (x : U256) : (uintWord x).length = 32 := beBytes_length 32 _

theorem addressWord_length (address : Address) : (addressWord address).length = 32 := by
  rw [addressWord, List.length_append, List.length_replicate, address.len]

theorem readUint_uintWord (x : U256) (rest : Bytes) : readUint (uintWord x ++ rest) = x := by
  have hlt : x.toNat < 256^32 := x.isLt
  unfold readUint
  rw [List.take_left' (uintWord_length x), uintWord, ofBe_beBytes, Nat.mod_eq_of_lt hlt]
  exact BitVec.ofNat_toNat 256 x |>.trans (BitVec.setWidth_eq x)

/-! ## the payload of a bridge message -/

/-- `abi.encode(user, amount)` -/
def encodeDeposit (user : Address) (amount : U256) : Bytes := addressWord user ++ uintWord amount

/-- `abi.decode(message, (address, uint256))`: two words at least, the upper bytes of the address
zero; what follows the two words is not looked at -/
def decodeDeposit (message : Bytes) : Option (Address × U256) :=
  if h : 64 ≤ message.length then
    if message.take 12 = List.replicate 12 0 then
      some (⟨(message.drop 12).take 20, by
        rw [List.length_take, List.length_drop]; omega⟩, readUint (message.drop 32))
    else none
  else none

theorem decodeDeposit_encode (user : Address) (amount : U256) :
    decodeDeposit (encodeDeposit user amount) = some (user, amount) := by
  have hlen : (encodeDeposit user amount).length = 64 := by
    rw [encodeDeposit, List.length_append, addressWord_length, uintWord_length]
  have hzero : (encodeDeposit user amount).take 12 = List.replicate 12 0 := by
    rw [encodeDeposit, addressWord, List.append_assoc]
    exact List.take_left' List.length_replicate
  have huser : ((encodeDeposit user amount).drop 12).take 20 = user.bytes := by
    rw [encodeDeposit, addressWord, List.append_assoc, List.drop_left' List.length_replicate,
      List.take_left' user.len]
  have hamount : readUint ((encodeDeposit user amount).drop 32) = amount := by
    rw [encodeDeposit, List.drop_left' (addressWord_length user)]
    have h := readUint_uintWord amount []
    rwa [List.append_nil] at h
  unfold decodeDeposit
  rw [dif_pos hlen.ge, if_pos hzero, Option.some.injEq, Prod.mk.injEq]
  exact ⟨FixedBytes.bytes_inj huser, hamount⟩

/-! ## logs -/

structure Log where
  address : Address
  topics : List B256
  data : Bytes
deriving DecidableEq

/-- `event TokensLocked(address indexed user, uint256 amount, uint256 when)` -/
structure TokensLocked where
  user : Address
  amount : U256
  when : U256
deriving DecidableEq

def TokensLocked.signature : Bytes := "TokensLocked(address,uint256,uint256)".toUTF8.toList

section
variable (keccak256 : Bytes → B256)

def TokensLocked.encodeLog (contract : Address) (event : TokensLocked) : Log where
  address := contract
  topics := [keccak256 signature, ⟨addressWord event.user, addressWord_length event.user⟩]
  data := uintWord event.amount ++ uintWord event.when

end

end ZkSymbiotic
