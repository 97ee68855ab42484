import ZkSymbiotic.Abi

/-!
# Packets: their id and the message the operators sign

* `generatePacketId`    the hash of `abi.encode(srcEid, dstEid, packetHeader, payloadHash)`;
* `buildMessageHash`    the hash of the tagged packed encoding of a packet and the place of its log;
* `packMessage_inj`     the packed encoding is unambiguous: the header is the only part without a
                        fixed width;
* `encodePacket_srcEid`   packets with one encoding come from one chain.
-/

namespace ZkSymbiotic

structure Packet where
  srcEid : UInt32
  dstEid : UInt32
  packetHeader : Bytes
  payloadHash : B256
deriving DecidableEq

/-- where the log of a packet is -/
structure SourceLog where
  blockHash : B256
  logIndex : UInt32
  emitter : Address
deriving DecidableEq

/-! ## encodings -/

def uint32Bytes (x : UInt32) : Bytes := beBytes 4 x.toNat

/-- `bytes` in the tail of an encoding: the length, then the bytes padded to whole words -/
def encodeBytes (bytes : Bytes) : Bytes :=
  beBytes 32 bytes.length ++ bytes ++ List.replicate ((32 - bytes.length % 32) % 32) 0

/-- `abi.encode(srcEid, dstEid, packetHeader, payloadHash)`: four head words, the third one the
offset of the header -/
def encodePacket (packet : Packet) : Bytes :=
  beBytes 32 packet.srcEid.toNat ++ (beBytes 32 packet.dstEid.toNat ++ (beBytes 32 128 ++
    (packet.payloadHash.bytes ++ encodeBytes packet.packetHeader)))

def messageTag : Bytes := "LZ_DVN_V1".toUTF8.toList

/-- `abi.encodePacked("LZ_DVN_V1", srcEid, dstEid, packetHeader, payloadHash, srcBlockHash,
logIndex, emitter)` -/
def packMessage (packet : Packet) (log : SourceLog) : Bytes :=
  messageTag ++ (uint32Bytes packet.srcEid ++ (uint32Bytes packet.dstEid ++ (packet.packetHeader ++
    (packet.payloadHash.bytes ++ (log.blockHash.bytes ++ (uint32Bytes log.logIndex ++
      log.emitter.bytes))))))

section
variable {Digest : Type} (keccak256 : Bytes → Digest)

def generatePacketId (packet : Packet) : Digest := keccak256 (encodePacket packet)

def buildMessageHash (packet : Packet) (log : SourceLog) : Digest :=
  keccak256 (packMessage packet log)

end

/-! ## what an encoding determines -/

theorem uint32Bytes_length (x : UInt32) : (uint32Bytes x).length = 4 := beBytes_length 4 _

theorem uint32_beBytes_inj {n : Nat} {a b : UInt32} (hn : 4 ≤ n)
    (h : beBytes n a.toNat = beBytes n b.toNat) : a = b := by
  have hpow : 2^32 ≤ 256^n := le_trans (by decide) (Nat.pow_le_pow_right (by decide) hn)
  have ha : a.toNat < 256^n := lt_of_lt_of_le a.toNat_lt hpow
  have hb : b.toNat < 256^n := lt_of_lt_of_le b.toNat_lt hpow
  exact UInt32.toNat_inj.mp (beBytes_inj ha hb h)

theorem uint32Bytes_inj {a b : UInt32} (h : uint32Bytes a = uint32Bytes b) : a = b :=
  uint32_beBytes_inj (le_refl 4) h

theorem encodePacket_srcEid {a b : Packet} (h : encodePacket a = encodePacket b) :
    a.srcEid = b.srcEid := by
  have hlen : (beBytes 32 a.srcEid.toNat).length = (beBytes 32 b.srcEid.toNat).length := by
    rw [beBytes_length, beBytes_length]
  exact uint32_beBytes_inj (by decide) (List.append_inj h hlen).1

/-- the fixed parts are split off from both ends, what is left is the header -/
theorem packMessage_inj {a b : Packet} {l m : SourceLog}
    (h : packMessage a l = packMessage b m) : a = b ∧ l = m := by
  obtain ⟨_, h⟩ := List.append_inj h rfl
  obtain ⟨hsrc, h⟩ := List.append_inj h (by rw [uint32Bytes_length, uint32Bytes_length])
  obtain ⟨hdst, h⟩ := List.append_inj h (by rw [uint32Bytes_length, uint32Bytes_length])
  obtain ⟨hheader, h⟩ := List.append_inj' h (by
    simp only [List.length_append, uint32Bytes_length, a.payloadHash.len, b.payloadHash.len,
      l.blockHash.len, m.blockHash.len, l.emitter.len, m.emitter.len])
  obtain ⟨hpayload, h⟩ := List.append_inj h (by rw [a.payloadHash.len, b.payloadHash.len])
  obtain ⟨hblock, h⟩ := List.append_inj h (by rw [l.blockHash.len, m.blockHash.len])
  obtain ⟨hindex, hemitter⟩ := List.append_inj h (by rw [uint32Bytes_length, uint32Bytes_length])
  refine ⟨?_, ?_⟩
  · cases a with
    | mk src dst header payload =>
      obtain rfl : src = b.srcEid := uint32Bytes_inj hsrc
      obtain rfl : dst = b.dstEid := uint32Bytes_inj hdst
      obtain rfl : header = b.packetHeader := hheader
      obtain rfl : payload = b.payloadHash := FixedBytes.bytes_inj hpayload
      rfl
  · cases l with
    | mk block index emitter =>
      obtain rfl : block = m.blockHash := FixedBytes.bytes_inj hblock
      obtain rfl : index = m.logIndex := uint32Bytes_inj hindex
      obtain rfl : emitter = m.emitter := FixedBytes.bytes_inj hemitter
      rfl

end ZkSymbiotic
