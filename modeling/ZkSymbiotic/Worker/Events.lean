import ZkSymbiotic.Worker.Hash

/-!
# The event listener of the worker

`event-listener.ts`: a log of the endpoint becomes a `PacketSent` event.  The endpoint ids are
constants, and the header is cut from the hex string of the packet: the `0x` and 64 digits.

* `parsePacketSentLog`      the event of a log;
* `encodePacket_inj`        the encoding under a packet id determines the packet;
* `packetId_eq_iff`         logs have one packet id exactly when the first 32 bytes of their packets
                            and their payload hashes agree.
-/

namespace ZkSymbiotic

/-- headers of a length that fits the word for it -/
theorem encodePacket_inj {a b : Packet} (ha : a.packetHeader.length < 256^32)
    (hb : b.packetHeader.length < 256^32) (h : encodePacket a = encodePacket b) : a = b := by
  have hlen : ∀ x y : Nat, (beBytes 32 x).length = (beBytes 32 y).length := fun x y => by
    rw [beBytes_length, beBytes_length]
  obtain ⟨hsrc, h⟩ := List.append_inj h (hlen _ _)
  obtain ⟨hdst, h⟩ := List.append_inj h (hlen _ _)
  obtain ⟨_, h⟩ := List.append_inj h (hlen _ _)
  obtain ⟨hpayload, h⟩ := List.append_inj h (by rw [a.payloadHash.len, b.payloadHash.len])
  rw [encodeBytes, encodeBytes, List.append_assoc, List.append_assoc] at h
  obtain ⟨hlength, h⟩ := List.append_inj h (hlen _ _)
  obtain ⟨hheader, _⟩ := List.append_inj h (beBytes_inj ha hb hlength)
  cases a with
  | mk src dst header payload =>
    obtain rfl : src = b.srcEid := uint32_beBytes_inj (by decide) hsrc
    obtain rfl : dst = b.dstEid := uint32_beBytes_inj (by decide) hdst
    obtain rfl : header = b.packetHeader := hheader
    obtain rfl : payload = b.payloadHash := FixedBytes.bytes_inj hpayload
    rfl

namespace DvnWorker

/-- `ethers.Log`, as far as it is read -/
structure EthersLog where
  topics : List String
  data : String
  blockHash : String
  index : Nat
  address : String
  transactionHash : String
  blockNumber : Nat

/-- the arguments of `PacketSent(bytes encodedPacket, bytes32 payloadHash, address sender)` -/
structure PacketSentArgs where
  encodedPacket : String
  payloadHash : String
  sender : String
deriving DecidableEq

/-- what the listener calls beyond `Ethers`: `iface.parseLog`, where `none` is `null`, and the
default ABI coder -/
structure EthersAbi (ε : Type) where
  parseLog : List String → String → Except ε (Option PacketSentArgs)
  encode : List SolidityType → List JsValue → Except ε String

/-- a thrown error: one of `ethers` or an `Error` of the worker -/
inductive Thrown (ε : Type) where
  | ethers (e : ε)
  | error (message : String)

/-- the whole event: the fields of its message, and the packet id, transaction and block -/
structure PacketSent (Digest : Type) extends PacketSentEvent where
  packetId : Digest
  transactionHash : String
  blockNumber : Nat

section
variable {ε Digest : Type} (ethers : Ethers ε Digest) (abi : EthersAbi ε)

def generatePacketId (srcEid dstEid : Nat) (packetHeader payloadHash : String) :
    Except ε Digest := do
  let encoded ← abi.encode [.uint32, .uint32, .bytes, .bytes32]
    [.number srcEid, .number dstEid, .string packetHeader, .string payloadHash]
  ethers.keccak256 encoded

/-- `s.slice(0, n)` -/
def slice (s : String) (n : Nat) : String := String.ofList (s.toList.take n)

def parsePacketSentLog (log : EthersLog) : Except (Thrown ε) (PacketSent Digest) := do
  let parsed ← (abi.parseLog log.topics log.data).mapError .ethers
  let args ← Except.okOr (.error "Failed to parse PacketSent event") parsed
  let srcEid := 30101
  let dstEid := 30184
  let packetHeader := slice args.encodedPacket 66
  let packetId ← (generatePacketId ethers abi srcEid dstEid packetHeader args.payloadHash).mapError
    .ethers
  return { packetId, srcEid, dstEid, packetHeader, payloadHash := args.payloadHash
           blockHash := log.blockHash, logIndex := log.index, emitter := log.address
           transactionHash := log.transactionHash, blockNumber := log.blockNumber }

/-- the documented behaviour: bytes come back as lower-case hex strings, and the coder writes what
`abi.encode` does in a contract -/
structure EthersAbi.Documented : Prop where
  parseLog : ∀ {topics : List String} {data : String} {args : PacketSentArgs},
    abi.parseLog topics data = .ok (some args) →
      ∃ (packet : Bytes) (payloadHash : B256), args.encodedPacket = hexlify packet ∧
        args.payloadHash = hexlify payloadHash.bytes
  encode : ∀ {packet : Packet} {header payloadHash : String},
    getBytes? header = some packet.packetHeader →
      getBytes? payloadHash = some packet.payloadHash.bytes →
      ∃ encoded, abi.encode [.uint32, .uint32, .bytes, .bytes32]
        [.number packet.srcEid.toNat, .number packet.dstEid.toNat, .string header,
          .string payloadHash] = .ok encoded ∧ getBytes? encoded = some (encodePacket packet)

/-! ## the header -/

theorem hexPair_length (byte : UInt8) : (hexPair byte).length = 2 := rfl

theorem take_flatMap_hexPair (bytes : Bytes) (n : Nat) :
    (bytes.flatMap hexPair).take (2 * n) = (bytes.take n).flatMap hexPair := by
  induction n generalizing bytes with
  | zero => rfl
  | succ n ih =>
    cases bytes with
    | nil => rfl
    | cons byte bytes =>
      have htwo : 2 * (n + 1) = (hexPair byte).length + 2 * n := by rw [hexPair_length]; ring
      rw [List.flatMap_cons, htwo, List.take_length_add_append, ih, List.take_succ_cons,
        List.flatMap_cons]

/-- the cut is at a whole byte -/
theorem slice_hexlify (bytes : Bytes) : slice (hexlify bytes) 66 = hexlify (bytes.take 32) := by
  rw [slice, hexlify, hexlify, String.toList_ofList]
  exact congrArg String.ofList (congrArg (fun l => '0' :: 'x' :: l) (take_flatMap_hexPair bytes 32))

/-! ## the event of a log -/

variable {ethers abi} {keccak256 : Bytes → Digest} {log log' : EthersLog}
  {packet packet' : Bytes} {payloadHash payloadHash' : B256}

/-- what a log is parsed to -/
def EthersAbi.Carries (abi : EthersAbi ε) (log : EthersLog) (packet : Bytes)
    (payloadHash : B256) : Prop :=
  ∃ sender, abi.parseLog log.topics log.data =
    .ok (some { encodedPacket := hexlify packet, payloadHash := hexlify payloadHash.bytes, sender })

/-- the packet that the worker sees in an encoded one -/
def seenPacket (packet : Bytes) (payloadHash : B256) : Packet where
  srcEid := 30101
  dstEid := 30184
  packetHeader := packet.take 32
  payloadHash := payloadHash

theorem seenPacket_header (packet : Bytes) (payloadHash : B256) :
    (seenPacket packet payloadHash).packetHeader.length < 256^32 := by
  have hle : (packet.take 32).length ≤ 32 := List.length_take_le _ _
  exact lt_of_le_of_lt hle (by norm_num)

theorem seenPacket_inj (h : seenPacket packet payloadHash = seenPacket packet' payloadHash') :
    packet.take 32 = packet'.take 32 ∧ payloadHash = payloadHash' := by
  simp only [seenPacket, Packet.mk.injEq, true_and] at h
  exact h

def eventOf (log : EthersLog) (packetId : Digest) (packet : Bytes) (payloadHash : B256) :
    PacketSent Digest where
  packetId := packetId
  srcEid := 30101
  dstEid := 30184
  packetHeader := hexlify (packet.take 32)
  payloadHash := hexlify payloadHash.bytes
  blockHash := log.blockHash
  logIndex := log.index
  emitter := log.address
  transactionHash := log.transactionHash
  blockNumber := log.blockNumber

theorem parse_of_carries (he : ethers.Documented keccak256) (ha : abi.Documented)
    (h : abi.Carries log packet payloadHash) :
    parsePacketSentLog ethers abi log = .ok (eventOf log
      (ZkSymbiotic.generatePacketId keccak256 (seenPacket packet payloadHash)) packet
      payloadHash) := by
  obtain ⟨sender, hparse⟩ := h
  have hheader : getBytes? (hexlify (packet.take 32)) =
      some (seenPacket packet payloadHash).packetHeader := getBytes?_hexlify _
  have hpayload : getBytes? (hexlify payloadHash.bytes) =
      some (seenPacket packet payloadHash).payloadHash.bytes := getBytes?_hexlify _
  obtain ⟨encoded, hencode, hbytes⟩ := ha.encode hheader hpayload
  have hid : generatePacketId ethers abi 30101 30184 (hexlify (packet.take 32))
      (hexlify payloadHash.bytes) =
        .ok (ZkSymbiotic.generatePacketId keccak256 (seenPacket packet payloadHash)) := by
    have hencode' : abi.encode [.uint32, .uint32, .bytes, .bytes32] [.number 30101, .number 30184,
      .string (hexlify (packet.take 32)), .string (hexlify payloadHash.bytes)] = .ok encoded :=
      hencode
    rw [generatePacketId, hencode']
    exact he.keccak256 hbytes
  rw [parsePacketSentLog, hparse]
  simp only [Except.mapError, Except.okOr, Except.ok_bind, slice_hexlify, hid]
  rfl

theorem carries_of_parse (ha : abi.Documented) {event : PacketSent Digest}
    (h : parsePacketSentLog ethers abi log = .ok event) :
    ∃ packet payloadHash, abi.Carries log packet payloadHash := by
  obtain ⟨parsed, hparsed, h⟩ := Except.bind_eq_ok.mp h
  obtain ⟨args, hargs, _⟩ := Except.bind_eq_ok.mp h
  rw [Except.okOr_eq_ok] at hargs
  rw [Except.mapError_eq_ok, hargs] at hparsed
  obtain ⟨packet, payloadHash, hpacket, hpayload⟩ := ha.parseLog hparsed
  cases args with
  | mk encodedPacket hash sender =>
    simp only at hpacket hpayload
    subst hpacket hpayload
    exact ⟨packet, payloadHash, sender, hparsed⟩

/-- **which packets the worker takes for one**: logs of well-formed packets always parse, and their
ids are equal if and only if the first 32 bytes of the packets and the payload hashes are -/
theorem packetId_eq_iff (hkeccak : Function.Injective keccak256) (he : ethers.Documented keccak256)
    (ha : abi.Documented) (h : abi.Carries log packet payloadHash)
    (h' : abi.Carries log' packet' payloadHash') :
    ∃ event event' : PacketSent Digest, parsePacketSentLog ethers abi log = .ok event ∧
      parsePacketSentLog ethers abi log' = .ok event' ∧
      (event.packetId = event'.packetId ↔
        packet.take 32 = packet'.take 32 ∧ payloadHash = payloadHash') := by
  refine ⟨_, _, parse_of_carries he ha h, parse_of_carries he ha h', ?_⟩
  constructor
  · intro hid
    exact seenPacket_inj (encodePacket_inj (seenPacket_header _ _) (seenPacket_header _ _)
      (hkeccak hid))
  · rintro ⟨hpacket, rfl⟩
    simp only [eventOf, seenPacket, hpacket]

end

/-! ## a concrete coder -/

namespace Devnet

/-- with the identity for the hash -/
def packetSentTopic : String := hexlify "PacketSent(bytes,bytes32,address)".toUTF8.toList

/-- the offset of the packet, the payload hash, the sender, and the packet with its length -/
def packetSentData (packet : Bytes) (payloadHash : B256) (sender : Address) : Bytes :=
  beBytes 32 96 ++ (payloadHash.bytes ++ (addressWord sender ++ encodeBytes packet))

/-- with the packet where `packetSentData` has it -/
def decodeData (data : Bytes) : Option PacketSentArgs :=
  let length := ofBe ((data.drop 96).take 32)
  if 128 + length ≤ data.length then
    some { encodedPacket := hexlify ((data.drop 128).take length)
           payloadHash := hexlify ((data.drop 32).take 32)
           sender := hexlify ((data.drop 76).take 20) }
  else none

def abi : EthersAbi Unit where
  parseLog := fun topics data =>
    if topics = [packetSentTopic] then do
      let bytes ← Except.okOr () (getBytes? data)
      let args ← Except.okOr () (decodeData bytes)
      return some args
    else return none
  encode := fun _ values =>
    match values with
    | [.number srcEid, .number dstEid, .string header, .string payloadHash] => do
      let header ← Except.okOr () (getBytes? header)
      let hash ← Except.okOr () (getBytes? payloadHash)
      if h : hash.length = 32 then
        return hexlify (encodePacket ⟨.ofNat srcEid, .ofNat dstEid, header, ⟨hash, h⟩⟩)
      else throw ()
    | _ => throw ()

theorem decodeData_some {data : Bytes} {args : PacketSentArgs} (h : decodeData data = some args) :
    ∃ (packet : Bytes) (payloadHash : B256), args.encodedPacket = hexlify packet ∧
      args.payloadHash = hexlify payloadHash.bytes := by
  unfold decodeData at h
  simp only at h
  split at h
  · rename_i hle
    cases h
    have hlen : ((data.drop 32).take 32).length = 32 := by
      rw [List.length_take, List.length_drop]
      omega
    exact ⟨_, ⟨_, hlen⟩, rfl, rfl⟩
  · cases h

theorem abi_documented : abi.Documented where
  parseLog := by
    intro topics data args h
    simp only [abi] at h
    split at h
    · obtain ⟨bytes, _, h⟩ := Except.bind_eq_ok.mp h
      obtain ⟨args', hargs, h⟩ := Except.bind_eq_ok.mp h
      cases h
      exact decodeData_some (Except.okOr_eq_ok.mp hargs)
    · cases h
  encode := by
    intro packet header payloadHash hheader hpayload
    refine ⟨hexlify (encodePacket packet), ?_, getBytes?_hexlify _⟩
    simp only [abi, hheader, hpayload, Except.okOr, Except.ok_bind, packet.payloadHash.len,
      UInt32.ofNat_toNat]
    rfl

def packetSentLog (packet : Bytes) : EthersLog where
  topics := [packetSentTopic]
  data := hexlify (packetSentData packet .zero .zero)
  blockHash := hexlify (List.replicate 32 0)
  index := 7
  address := hexlify (List.replicate 20 0)
  transactionHash := hexlify (List.replicate 32 0)
  blockNumber := 100

def longPacket (last : UInt8) : Bytes := List.replicate 40 0 ++ [last]

theorem field_of_append {before field after data : Bytes} {i n : Nat}
    (h : data = before ++ (field ++ after)) (hi : before.length = i) (hn : field.length = n) :
    (data.drop i).take n = field := by
  rw [h, List.drop_left' hi, List.take_left' hn]

theorem decodeData_packetSentData {packet : Bytes} (h : packet.length < 256^32)
    (payloadHash : B256) (sender : Address) :
    decodeData (packetSentData packet payloadHash sender) = some {
      encodedPacket := hexlify packet, payloadHash := hexlify payloadHash.bytes,
      sender := hexlify sender.bytes } := by
  let data := packetSentData packet payloadHash sender
  let head := beBytes 32 96 ++ (payloadHash.bytes ++ addressWord sender)
  let padding := List.replicate ((32 - packet.length % 32) % 32) (0 : UInt8)
  have hhead : head.length = 96 := by
    simp only [head, addressWord, List.length_append, beBytes_length, payloadHash.len, sender.len,
      List.length_replicate]
  have hsenderAt : data = (beBytes 32 96 ++ (payloadHash.bytes ++ List.replicate 12 0)) ++
      (sender.bytes ++ encodeBytes packet) := by
    simp only [data, packetSentData, addressWord, List.append_assoc]
  have hlengthAt : data = head ++ (beBytes 32 packet.length ++ (packet ++ padding)) := by
    simp only [data, head, packetSentData, encodeBytes, padding, List.append_assoc]
  have hpacketAt : data = (head ++ beBytes 32 packet.length) ++ (packet ++ padding) :=
    hlengthAt.trans (List.append_assoc _ _ _).symm
  have hwords : (head ++ beBytes 32 packet.length).length = 128 := by
    rw [List.length_append, hhead, beBytes_length]
  have hhash : (data.drop 32).take 32 = payloadHash.bytes :=
    field_of_append rfl (beBytes_length 32 96) payloadHash.len
  have hsender : (data.drop 76).take 20 = sender.bytes := by
    refine field_of_append hsenderAt ?_ sender.len
    simp only [List.length_append, beBytes_length, payloadHash.len, List.length_replicate]
  have hlength : ofBe ((data.drop 96).take 32) = packet.length := by
    rw [field_of_append hlengthAt hhead (beBytes_length 32 _), ofBe_beBytes, Nat.mod_eq_of_lt h]
  have hpacket : (data.drop 128).take packet.length = packet :=
    field_of_append hpacketAt hwords rfl
  have hle : 128 + packet.length ≤ data.length := by
    rw [hpacketAt, List.length_append, hwords, List.length_append]
    exact Nat.add_le_add_left (Nat.le_add_right _ _) 128
  show (if 128 + ofBe ((data.drop 96).take 32) ≤ data.length then
    some (PacketSentArgs.mk (hexlify ((data.drop 128).take (ofBe ((data.drop 96).take 32))))
      (hexlify ((data.drop 32).take 32)) (hexlify ((data.drop 76).take 20))) else none) = _
  rw [hlength, hpacket, hhash, hsender, if_pos hle]

theorem parseLog_of {bytes : Bytes} {args : PacketSentArgs} (h : decodeData bytes = some args) :
    abi.parseLog [packetSentTopic] (hexlify bytes) = .ok (some args) := by
  simp only [abi, if_true, getBytes?_hexlify, h, Except.okOr, Except.ok_bind]
  rfl

theorem packetSentLog_carries {packet : Bytes} (h : packet.length < 256^32) :
    abi.Carries (packetSentLog packet) packet .zero :=
  ⟨_, parseLog_of (decodeData_packetSentData h .zero .zero)⟩

theorem longPacket_carries (last : UInt8) :
    abi.Carries (packetSentLog (longPacket last)) (longPacket last) .zero := by
  refine packetSentLog_carries ?_
  rw [longPacket, List.length_append, List.length_replicate, List.length_singleton]
  norm_num

end Devnet

/-- two packets that differ in their last byte only -/
theorem packetId_eq_iff_devnet : ∃ event event' : PacketSent Bytes,
    parsePacketSentLog Devnet.ethers Devnet.abi (Devnet.packetSentLog (Devnet.longPacket 1)) =
      .ok event ∧
    parsePacketSentLog Devnet.ethers Devnet.abi (Devnet.packetSentLog (Devnet.longPacket 2)) =
      .ok event' ∧
    event.packetId = event'.packetId := by
  obtain ⟨event, event', h, h', hiff⟩ := packetId_eq_iff Function.injective_id
    Devnet.ethers_documented Devnet.abi_documented (Devnet.longPacket_carries 1)
    (Devnet.longPacket_carries 2)
  exact ⟨event, event', h, h', hiff.mpr ⟨by decide, rfl⟩⟩

end DvnWorker
end ZkSymbiotic
