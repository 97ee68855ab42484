import ZkSymbiotic.Lib.Hex
import ZkSymbiotic.Lib.Result
import ZkSymbiotic.Contracts.Packet

/-!
# The message hash of the worker

The worker hashes the message of a packet with `ethers`, from numbers and hex strings.

* `Ethers.Documented`     what the worker relies on: the packed mode, one part for each value;
* `buildMessageHash`      the hash that the operators are asked to sign;
* `message_encoding`      worker and contract hash one byte string, and it determines the packet.
-/

namespace ZkSymbiotic.DvnWorker

inductive SolidityType where
  | string
  | uint32
  | bytes
  | bytes32
  | address

inductive JsValue where
  | number (n : Nat)
  | string (s : String)

/-- the functions of `ethers` that the worker calls, and the check of an address in them -/
structure Ethers (ε Digest : Type) where
  solidityPacked : List SolidityType → List JsValue → Except ε String
  keccak256 : String → Except ε Digest
  isAddress : String → Bool

section
variable {ε Digest : Type} (ethers : Ethers ε Digest) (keccak256 : Bytes → Digest)

/-- the part of a value in the packed mode; nothing is said of values that do not fit their type -/
inductive Packs : SolidityType × JsValue → Bytes → Prop
  | string (s : String) : Packs (.string, .string s) s.toUTF8.toList
  | uint32 {n : Nat} (h : n < 2^32) : Packs (.uint32, .number n) (beBytes 4 n)
  | bytes {s : String} {bytes : Bytes} (h : getBytes? s = some bytes) :
      Packs (.bytes, .string s) bytes
  | bytes32 {s : String} {word : B256} (h : getBytes? s = some word.bytes) :
      Packs (.bytes32, .string s) word.bytes
  | address {s : String} {address : Address} (hvalid : ethers.isAddress s = true)
      (h : getBytes? s = some address.bytes) : Packs (.address, .string s) address.bytes

/-- the documented behaviour: the parts are concatenated, the hash is that of the bytes a hex
string spells, and a lower-case address needs no checksum -/
structure Ethers.Documented : Prop where
  solidityPacked : ∀ {types : List SolidityType} {values : List JsValue} {parts : List Bytes},
    types.length = values.length → List.Forall₂ (Packs ethers) (types.zip values) parts →
      ∃ packed, ethers.solidityPacked types values = .ok packed ∧
        getBytes? packed = some parts.flatten
  keccak256 : ∀ {s : String} {bytes : Bytes}, getBytes? s = some bytes →
    ethers.keccak256 s = .ok (keccak256 bytes)
  isAddress : ∀ address : Address, ethers.isAddress (hexlify address.bytes) = true

/-! ## `utils/hash.ts` -/

/-- what `buildMessageHash` hashes -/
def packedMessage (srcEid dstEid : Nat) (packetHeader payloadHash srcBlockHash : String)
    (logIndex : Nat) (emitter : String) : Except ε String :=
  ethers.solidityPacked
    [.string, .uint32, .uint32, .bytes, .bytes32, .bytes32, .uint32, .address]
    [.string "LZ_DVN_V1", .number srcEid, .number dstEid, .string packetHeader,
      .string payloadHash, .string srcBlockHash, .number logIndex, .string emitter]

def buildMessageHash (srcEid dstEid : Nat) (packetHeader payloadHash srcBlockHash : String)
    (logIndex : Nat) (emitter : String) : Except ε Digest := do
  let packed ← packedMessage ethers srcEid dstEid packetHeader payloadHash srcBlockHash logIndex
    emitter
  ethers.keccak256 packed

/-- the fields of a `PacketSentEvent` that its message is built from -/
structure PacketSentEvent where
  srcEid : Nat
  dstEid : Nat
  packetHeader : String
  payloadHash : String
  blockHash : String
  logIndex : Nat
  emitter : String

namespace PacketSentEvent

def packed (event : PacketSentEvent) : Except ε String :=
  packedMessage ethers event.srcEid event.dstEid event.packetHeader event.payloadHash
    event.blockHash event.logIndex event.emitter

/-- the call in `buildVerificationRequest` -/
def messageHash (event : PacketSentEvent) : Except ε Digest :=
  buildMessageHash ethers event.srcEid event.dstEid event.packetHeader event.payloadHash
    event.blockHash event.logIndex event.emitter

/-- the numbers and hex strings of an event stand for a packet and the place of its log -/
structure Spells (event : PacketSentEvent) (packet : Packet) (log : SourceLog) : Prop where
  srcEid : event.srcEid = packet.srcEid.toNat
  dstEid : event.dstEid = packet.dstEid.toNat
  packetHeader : getBytes? event.packetHeader = some packet.packetHeader
  payloadHash : getBytes? event.payloadHash = some packet.payloadHash.bytes
  blockHash : getBytes? event.blockHash = some log.blockHash.bytes
  logIndex : event.logIndex = log.logIndex.toNat
  emitter : getBytes? event.emitter = some log.emitter.bytes
  isAddress : ethers.isAddress event.emitter = true

/-- the event in lower-case hex -/
def spell (packet : Packet) (log : SourceLog) : PacketSentEvent where
  srcEid := packet.srcEid.toNat
  dstEid := packet.dstEid.toNat
  packetHeader := hexlify packet.packetHeader
  payloadHash := hexlify packet.payloadHash.bytes
  blockHash := hexlify log.blockHash.bytes
  logIndex := log.logIndex.toNat
  emitter := hexlify log.emitter.bytes

variable {ethers keccak256} {event : PacketSentEvent} {packet : Packet} {log : SourceLog}

theorem spell_spells (h : ethers.Documented keccak256) (packet : Packet) (log : SourceLog) :
    (spell packet log).Spells ethers packet log where
  srcEid := rfl
  dstEid := rfl
  packetHeader := getBytes?_hexlify _
  payloadHash := getBytes?_hexlify _
  blockHash := getBytes?_hexlify _
  logIndex := rfl
  emitter := getBytes?_hexlify _
  isAddress := h.isAddress log.emitter

/-- the eight values pack to the eight parts of the contract's encoding, in its order -/
theorem Spells.packed (h : ethers.Documented keccak256) (hs : event.Spells ethers packet log) :
    ∃ packed, event.packed ethers = .ok packed ∧
      getBytes? packed = some (packMessage packet log) := by
  have hparts : List.Forall₂ (Packs ethers)
      [(.string, .string "LZ_DVN_V1"), (.uint32, .number event.srcEid),
        (.uint32, .number event.dstEid), (.bytes, .string event.packetHeader),
        (.bytes32, .string event.payloadHash), (.bytes32, .string event.blockHash),
        (.uint32, .number event.logIndex), (.address, .string event.emitter)]
      [messageTag, uint32Bytes packet.srcEid, uint32Bytes packet.dstEid, packet.packetHeader,
        packet.payloadHash.bytes, log.blockHash.bytes, uint32Bytes log.logIndex,
        log.emitter.bytes] := by
    have huint32 : ∀ {n : Nat} (x : UInt32), n = x.toNat →
        Packs ethers (.uint32, .number n) (uint32Bytes x) := by
      rintro _ x rfl
      exact .uint32 x.toNat_lt
    exact .cons (.string _) (.cons (huint32 _ hs.srcEid) (.cons (huint32 _ hs.dstEid)
      (.cons (.bytes hs.packetHeader) (.cons (.bytes32 hs.payloadHash)
        (.cons (.bytes32 hs.blockHash) (.cons (huint32 _ hs.logIndex)
          (.cons (.address hs.isAddress hs.emitter) .nil)))))))
  obtain ⟨packed, hpacked, hbytes⟩ : ∃ packed, event.packed ethers = .ok packed ∧
      getBytes? packed = some _ := h.solidityPacked rfl hparts
  refine ⟨packed, hpacked, ?_⟩
  rw [hbytes, packMessage]
  simp only [List.flatten_cons, List.flatten_nil, List.append_nil]

theorem Spells.messageHash (h : ethers.Documented keccak256)
    (hs : event.Spells ethers packet log) :
    event.messageHash ethers = .ok (ZkSymbiotic.buildMessageHash keccak256 packet log) := by
  obtain ⟨packed, hpacked, hbytes⟩ := hs.packed h
  have hhash : event.messageHash ethers = (event.packed ethers >>= ethers.keccak256) := rfl
  rw [hhash, hpacked]
  exact h.keccak256 hbytes

end PacketSentEvent

/-- **The signed message is unambiguous, and the same on both sides.** Every packet can be spelled;
the worker then hashes the bytes that the contract hashes; these bytes determine the packet and the
place of its log, and with an injective hash so does the hash. -/
theorem message_encoding {ethers : Ethers ε Digest} {keccak256 : Bytes → Digest}
    (h : ethers.Documented keccak256) :
    (∀ packet log, ∃ event : PacketSentEvent, event.Spells ethers packet log) ∧
      (∀ event packet log, PacketSentEvent.Spells ethers event packet log →
        (∃ packed, event.packed ethers = .ok packed ∧
          getBytes? packed = some (packMessage packet log)) ∧
        event.messageHash ethers = .ok (ZkSymbiotic.buildMessageHash keccak256 packet log)) ∧
      (∀ packet packet' log log', packMessage packet log = packMessage packet' log' →
        packet = packet' ∧ log = log') ∧
      (Function.Injective keccak256 → ∀ packet packet' log log',
        ZkSymbiotic.buildMessageHash keccak256 packet log
          = ZkSymbiotic.buildMessageHash keccak256 packet' log' →
        packet = packet' ∧ log = log') := by
  refine ⟨fun packet log => ⟨_, PacketSentEvent.spell_spells h packet log⟩,
    fun _ _ _ hs => ⟨hs.packed h, hs.messageHash h⟩, fun _ _ _ _ heq => packMessage_inj heq, ?_⟩
  intro hkeccak packet packet' log log' heq
  exact packMessage_inj (hkeccak heq)

end

/-! ## a concrete packed mode -/

namespace Devnet

/-- without the checksum: an address that is all digits has none -/
def addressBytes? (s : String) : Option Bytes :=
  (getBytes? s).filter fun bytes => bytes.length = 20

def pack : SolidityType × JsValue → Option Bytes
  | (.string, .string s) => some s.toUTF8.toList
  | (.uint32, .number n) => if n < 2^32 then some (beBytes 4 n) else none
  | (.bytes, .string s) => getBytes? s
  | (.bytes32, .string s) => (getBytes? s).filter fun bytes => bytes.length = 32
  | (.address, .string s) => addressBytes? s
  | _ => none

/-- with the identity for the hash -/
def ethers : Ethers Unit Bytes where
  solidityPacked := fun types values => do
    Except.failIf (types.length ≠ values.length) ()
    let parts ← (types.zip values).mapM fun value => Except.okOr () (pack value)
    return hexlify parts.flatten
  keccak256 := fun s => Except.okOr () (getBytes? s)
  isAddress := fun s => (addressBytes? s).isSome

theorem pack_eq {value : SolidityType × JsValue} {part : Bytes} (h : Packs ethers value part) :
    pack value = some part := by
  cases h with
  | string => rfl
  | uint32 h => exact if_pos h
  | bytes h => exact h
  | @bytes32 s word h =>
    show (getBytes? s).filter _ = _
    rw [h]
    exact if_pos (decide_eq_true word.len)
  | @address s address hvalid h =>
    show (getBytes? s).filter _ = _
    rw [h]
    exact if_pos (decide_eq_true address.len)

theorem ethers_documented : ethers.Documented id where
  solidityPacked := by
    intro types values parts hlen hparts
    have hmap : (types.zip values).mapM (fun value => Except.okOr () (pack value)) = .ok parts :=
      Except.mapM_eq_ok.mpr (hparts.imp fun value part hpart => by
        rw [pack_eq hpart]
        rfl)
    refine ⟨hexlify parts.flatten, ?_, getBytes?_hexlify _⟩
    simp only [ethers]
    rw [Except.failIf_false (not_not_intro hlen), Except.ok_bind, hmap]
    rfl
  keccak256 := by
    intro s bytes h
    simp only [ethers]
    rw [h]
    rfl
  isAddress := by
    intro address
    simp only [ethers, addressBytes?]
    rw [getBytes?_hexlify, Option.filter_some, if_pos (decide_eq_true address.len)]
    rfl

def shortHeader : Packet := ⟨30101, 30184, [1, 2], .zero⟩
def longHeader : Packet := ⟨30101, 30184, [1, 2, 0, 0], .zero⟩

def signedLog : SourceLog where
  blockHash := .zero
  logIndex := 7
  emitter := .ofNat 20 0x123

end Devnet

/-- the longer header does not pass for the shorter one with a part of the zero payload hash -/
theorem message_encoding_devnet :
    (PacketSentEvent.spell Devnet.shortHeader Devnet.signedLog).messageHash Devnet.ethers
        = .ok (packMessage Devnet.shortHeader Devnet.signedLog) ∧
      ZkSymbiotic.buildMessageHash id Devnet.shortHeader Devnet.signedLog
        ≠ ZkSymbiotic.buildMessageHash id Devnet.longHeader Devnet.signedLog := by
  obtain ⟨_, hsame, _, hinj⟩ := message_encoding Devnet.ethers_documented
  have hspells := PacketSentEvent.spell_spells Devnet.ethers_documented Devnet.shortHeader
    Devnet.signedLog
  refine ⟨(hsame _ _ _ hspells).2, fun heq => ?_⟩
  obtain ⟨hpacket, _⟩ := hinj Function.injective_id _ _ _ _ heq
  exact absurd hpacket (by decide)

end ZkSymbiotic.DvnWorker
