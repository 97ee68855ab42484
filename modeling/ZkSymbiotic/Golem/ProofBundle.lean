import ZkSymbiotic.Lib.Bytes
import ZkSymbiotic.Lib.Json

/-!
# Proof bundles in golem

Two programs keep proof bundles in golem, one in Rust and one in TypeScript.  They annotate their
entities in the same way and look them up by the same query, and each one encodes a bundle as JSON
with the names that its own fields have.

* `Carries`              what a JSON reader makes of the objects that a JSON writer has written;
* `Runtime.Standard`     what the two programs rely on;
* `Rust`, `TypeScript`   the two programs: their codecs, and storing and looking up a bundle;
* `Rust.get_rust`, `TypeScript.get_typeScript`   each one returns its own bundles;
* `Interoperate`         a bundle that one program has stored is what the other one looks up;
* `never_interoperate`   it never is.
-/

namespace ZkSymbiotic.Golem

/-! ## the libraries -/

/-- an entity to be stored, for a number of blocks -/
structure Create where
  data : Bytes
  btl : Nat
  stringAnnotations : List (String × String)
  numericAnnotations : List (String × Nat)

/-- an entity that a query has found -/
structure Entity where
  storageValue : Bytes

structure GolemBaseClient (ε Receipt : Type) where
  createEntities : List Create → Except ε (List Receipt)
  queryEntities : String → Except ε (List Entity)

structure JsonLibrary where
  write : Json → String
  read : String → Option Json

/-- an object is read as an object with the same names and the same integers below the bound, in
some order; nothing is said of its other members -/
structure Carries (bound : Nat) (writer reader : JsonLibrary) : Prop where
  object : ∀ {members : List (String × Json)} {v : Json}, (members.map Prod.fst).Nodup →
    reader.read (writer.write (.object members)) = some v → ∃ members', v = .object members' ∧
      (members'.map Prod.fst).Perm (members.map Prod.fst) ∧
      ∀ name (n : Nat), n < bound → (name, Json.int n) ∈ members → (name, Json.int n) ∈ members'
  integers : ∀ {members : List (String × Json)}, (members.map Prod.fst).Nodup →
    (∀ member ∈ members, ∃ n : Nat, n < bound ∧ member.2 = .int n) →
      (reader.read (writer.write (.object members))).isSome

/-- `serde_json`, the `JSON` of JavaScript, and what its `TextDecoder` makes of ill-formed bytes -/
structure Runtime where
  serdeJson : JsonLibrary
  js : JsonLibrary
  replaceInvalid : Bytes → String

/-- `serde_json` keeps integers of 64 bits, and JavaScript those that a double represents; no text
begins with a byte order mark, and what `JSON.stringify` writes `JSON.parse` reads -/
structure Runtime.Standard (runtime : Runtime) : Prop where
  rust : Carries (2^64) runtime.serdeJson runtime.serdeJson
  typeScript : Carries (2^53) runtime.js runtime.js
  toRust : Carries (2^53) runtime.js runtime.serdeJson
  toTypeScript : Carries (2^53) runtime.serdeJson runtime.js
  rustMark : ∀ v, (runtime.serdeJson.write v).toList.head? ≠ some '\uFEFF'
  typeScriptMark : ∀ v, (runtime.js.write v).toList.head? ≠ some '\uFEFF'
  parse_stringify : ∀ v, (runtime.js.read (runtime.js.write v)).isSome

/-- how a call ends without a result -/
inductive Failure (ε : Type) where
  | client (err : ε)
  | panic (message : String)
  | syntaxError

def utf8 (s : String) : Bytes := s.toByteArray.data.toList

def utf8? (bytes : Bytes) : Option String := String.fromUTF8? ⟨bytes.toArray⟩

theorem utf8?_utf8 (s : String) : utf8? (utf8 s) = some s :=
  dif_pos s.isValidUTF8

/-! ## `golem.rs` -/

namespace Rust

structure EthConsensusProofBundleAndWindow where
  inputBlockNumber : UInt64
  outputBlockNumber : UInt64
deriving DecidableEq

def ethConsensusProofTtl : Nat := 24 * 60 * 60

/-- half of it, rounded up -/
def ethConsensusProofBtl : Nat := (ethConsensusProofTtl + 1) / 2

def EthConsensusProofBundleAndWindow.members (bundle : EthConsensusProofBundleAndWindow) :
    List (String × Json) :=
  [("input_block_number", .int bundle.inputBlockNumber.toNat),
    ("output_block_number", .int bundle.outputBlockNumber.toNat)]

/-- the derived `Serialize` -/
def EthConsensusProofBundleAndWindow.toJson (bundle : EthConsensusProofBundleAndWindow) : Json :=
  .object bundle.members

def u64? : Json → Option UInt64
  | .int n => if 0 ≤ n ∧ n < 2^64 then some (UInt64.ofNat n.toNat) else none
  | _ => none

/-- the members of an object one after the other: a field is read once, other names are left out -/
def visitMap : Option UInt64 → Option UInt64 → List (String × Json) →
    Option EthConsensusProofBundleAndWindow
  | some inputBlockNumber, some outputBlockNumber, [] =>
    some { inputBlockNumber, outputBlockNumber }
  | _, _, [] => none
  | input, output, (name, value) :: members =>
    if name = "input_block_number" then
      if input.isSome then none
      else (u64? value).bind fun n => visitMap (some n) output members
    else if name = "output_block_number" then
      if output.isSome then none
      else (u64? value).bind fun n => visitMap input (some n) members
    else visitMap input output members

/-- the derived `Deserialize`, which also takes the fields in their order -/
def EthConsensusProofBundleAndWindow.ofJson : Json → Option EthConsensusProofBundleAndWindow
  | .object members => visitMap none none members
  | .array [input, output] => do
    let inputBlockNumber ← u64? input
    let outputBlockNumber ← u64? output
    return { inputBlockNumber, outputBlockNumber }
  | _ => none

section
variable (runtime : Runtime)

def serialiseEthConsensusProofBundle (proofBundle : EthConsensusProofBundleAndWindow) : Bytes :=
  utf8 (runtime.serdeJson.write proofBundle.toJson)

/-- an error is the message of a panic -/
def deserialiseEthConsensusProofBundle (data : Bytes) :
    Except String EthConsensusProofBundleAndWindow :=
  match utf8? data with
  | none => .error "Invalid UTF-8 in stored proof bundle"
  | some decoded =>
    match (runtime.serdeJson.read decoded).bind EthConsensusProofBundleAndWindow.ofJson with
    | none => .error "Failed to parse proof bundle JSON"
    | some bundle => .ok bundle

def createProofEntity (proofBundle : EthConsensusProofBundleAndWindow) : Create where
  data := serialiseEthConsensusProofBundle runtime proofBundle
  btl := ethConsensusProofBtl
  stringAnnotations :=
    [("id", s!"{proofBundle.inputBlockNumber.toNat}_{proofBundle.outputBlockNumber.toNat}")]
  numericAnnotations := [("inputBlockNumber", proofBundle.inputBlockNumber.toNat),
    ("outputBlockNumber", proofBundle.outputBlockNumber.toNat)]

variable {ε Receipt : Type} (client : GolemBaseClient ε Receipt)

def createEthConsensusProofBundleEntity (proofBundle : EthConsensusProofBundleAndWindow) :
    Except (Failure ε) (List Receipt) :=
  (client.createEntities [createProofEntity runtime proofBundle]).mapError .client

def query (targetBlockNumber : UInt64) : String :=
  let target := targetBlockNumber.toNat
  s!"(inputBlockNumber < {target} || inputBlockNumber = {target})"
    ++ s!" && (outputBlockNumber > {target} || outputBlockNumber = {target})"

def getEthConsensusProofBundleEntity (targetBlockNumber : UInt64) :
    Except (Failure ε) (Option EthConsensusProofBundleAndWindow) :=
  match client.queryEntities (query targetBlockNumber) with
  | .error err => .error (.client err)
  | .ok [] => .ok none
  | .ok (entity :: _) =>
    match deserialiseEthConsensusProofBundle runtime entity.storageValue with
    | .error message => .error (.panic message)
    | .ok bundle => .ok (some bundle)

end

end Rust

/-! ## `golemConsensusProofEntity.ts` -/

namespace TypeScript

/-- the block numbers are integers -/
structure EthConsensusProofBundleAndWindow where
  ethConsensusProofBundle : Json
  inputBlockNumber : Nat
  outputBlockNumber : Nat

def ethConsensusProofTTL : Nat := 24 * 60 * 60

/-- half of it, rounded up -/
def ethConsensusProofBTL : Nat := (ethConsensusProofTTL + 1) / 2

def EthConsensusProofBundleAndWindow.members (bundle : EthConsensusProofBundleAndWindow) :
    List (String × Json) :=
  [("ethConsensusProofBundle", bundle.ethConsensusProofBundle),
    ("inputBlockNumber", .int bundle.inputBlockNumber),
    ("outputBlockNumber", .int bundle.outputBlockNumber)]

def EthConsensusProofBundleAndWindow.toJson (bundle : EthConsensusProofBundleAndWindow) : Json :=
  .object bundle.members

/-- a property of a value; `none` is `undefined` -/
def property (v : Json) (name : String) : Option Json :=
  match v with
  | .object members => members.lookup name
  | _ => none

section
variable (runtime : Runtime)

def serialiseEthConsensusProofBundle (proofBundle : EthConsensusProofBundleAndWindow) : Bytes :=
  utf8 (runtime.js.write proofBundle.toJson)

/-- `TextDecoder.decode`, which leaves out a byte order mark -/
def decode (bytes : Bytes) : String :=
  match utf8? bytes with
  | none => runtime.replaceInvalid bytes
  | some s =>
    match s.toList with
    | '\uFEFF' :: chars => String.ofList chars
    | _ => s

/-- whatever `JSON.parse` returns passes for a bundle -/
def deserialiseEthConsensusProofBundle (proofBundleUint8Array : Bytes) : Option Json :=
  runtime.js.read (decode runtime proofBundleUint8Array)

def createProofEntity (proofBundle : EthConsensusProofBundleAndWindow) : Create where
  data := serialiseEthConsensusProofBundle runtime proofBundle
  btl := ethConsensusProofBTL
  stringAnnotations := [("id", s!"{proofBundle.inputBlockNumber}_{proofBundle.outputBlockNumber}")]
  numericAnnotations := [("inputBlockNumber", proofBundle.inputBlockNumber),
    ("outputBlockNumber", proofBundle.outputBlockNumber)]

variable {ε Receipt : Type} (client : GolemBaseClient ε Receipt)

def createEthConsensusProofBundleEntity (proofBundle : EthConsensusProofBundleAndWindow) :
    Except (Failure ε) (List Receipt) :=
  (client.createEntities [createProofEntity runtime proofBundle]).mapError .client

def query (targetBlockNumber : Nat) : String :=
  s!"(inputBlockNumber < {targetBlockNumber} || inputBlockNumber = {targetBlockNumber})"
    ++ s!" && (outputBlockNumber > {targetBlockNumber} || outputBlockNumber = {targetBlockNumber})"

def getEthConsensusProofBundleEntity (targetBlockNumber : Nat) :
    Except (Failure ε) (Option Json) :=
  match client.queryEntities (query targetBlockNumber) with
  | .error err => .error (.client err)
  | .ok [] => .ok none
  | .ok (entity :: _) =>
    match deserialiseEthConsensusProofBundle runtime entity.storageValue with
    | none => .error .syntaxError
    | some bundle => .ok (some bundle)

end

end TypeScript

/-! ## what is read of an object -/

theorem property_eq_none {members : List (String × Json)} {name : String}
    (h : name ∉ members.map Prod.fst) : TypeScript.property (.object members) name = none := by
  refine List.lookup_eq_none_iff.mpr fun member hmember => bne_iff_ne.mpr ?_
  rintro rfl
  exact h (List.mem_map_of_mem hmember)

theorem property_eq_some {members : List (String × Json)} {name : String} {v : Json}
    (hnodup : (members.map Prod.fst).Nodup) (h : (name, v) ∈ members) :
    TypeScript.property (.object members) name = some v := by
  obtain ⟨before, after, rfl⟩ := List.append_of_mem h
  refine List.lookup_eq_some_iff.mpr ⟨before, after, rfl, fun member hmember => ?_⟩
  rw [List.map_append] at hnodup
  refine bne_iff_ne.mpr (Ne.symm ?_)
  exact (List.nodup_append.mp hnodup).2.2 _ (List.mem_map_of_mem hmember) name List.mem_cons_self

namespace Rust

theorem u64?_toNat (n : UInt64) : u64? (.int n.toNat) = some n := by
  have hlt : (n.toNat : Int) < 2^64 := Int.ofNat_lt.mpr n.toNat_lt
  simp only [u64?]
  rw [if_pos ⟨Int.natCast_nonneg _, hlt⟩, Int.toNat_natCast, UInt64.ofNat_toNat]

/-- a field that no member has is missing at the end -/
theorem visitMap_missing {members : List (String × Json)}
    (h : "input_block_number" ∉ members.map Prod.fst) :
    ∀ output : Option UInt64, visitMap none output members = none := by
  induction members with
  | nil => intro output; rfl
  | cons member members ih =>
    obtain ⟨name, value⟩ := member
    rw [List.map_cons, List.mem_cons, not_or] at h
    obtain ⟨hname, hmembers⟩ := h
    intro output
    rw [visitMap, if_neg fun heq => hname heq.symm]
    split
    · split
      · rfl
      · cases u64? value with
        | none => rfl
        | some n => exact ih hmembers (some n)
    · exact ih hmembers output

/-- what a field is read as: it was met before, or a member that is still to come has its name -/
def Field (name : String) (n : UInt64) (members : List (String × Json)) (met : Option UInt64) :
    Prop :=
  met = some n ∧ name ∉ members.map Prod.fst ∨ met = none ∧ (name, Json.int n.toNat) ∈ members

theorem Field.tail {name name' : String} {n : UInt64} {value : Json} {met : Option UInt64}
    {members : List (String × Json)} (h : Field name n ((name', value) :: members) met)
    (hne : name' ≠ name) : Field name n members met := by
  rcases h with ⟨hmet, hnot⟩ | ⟨hmet, hmem⟩
  · exact Or.inl ⟨hmet, fun hmem => hnot (List.mem_cons_of_mem _ hmem)⟩
  · rcases List.mem_cons.mp hmem with heq | hmem
    · exact absurd (Prod.mk.inj heq).1.symm hne
    · exact Or.inr ⟨hmet, hmem⟩

/-- the member of its name is the one that a field is read from -/
theorem Field.head {name : String} {n : UInt64} {value : Json} {met : Option UInt64}
    {members : List (String × Json)} (hnodup : (((name, value) :: members).map Prod.fst).Nodup)
    (h : Field name n ((name, value) :: members) met) :
    met = none ∧ u64? value = some n ∧ Field name n members (some n) := by
  have hnot := (List.nodup_cons.mp hnodup).1
  rcases h with ⟨_, habsent⟩ | ⟨hmet, hmem⟩
  · exact absurd List.mem_cons_self habsent
  rcases List.mem_cons.mp hmem with heq | hmem
  · obtain ⟨_, rfl⟩ := Prod.mk.inj heq
    exact ⟨hmet, u64?_toNat n, Or.inl ⟨rfl, hnot⟩⟩
  · exact absurd (List.mem_map_of_mem hmem) hnot

theorem visitMap_eq_some {members : List (String × Json)} {m n : UInt64} :
    ∀ {input output : Option UInt64}, (members.map Prod.fst).Nodup →
      Field "input_block_number" m members input → Field "output_block_number" n members output →
        visitMap input output members = some { inputBlockNumber := m, outputBlockNumber := n } := by
  induction members with
  | nil =>
    rintro input output _ (⟨rfl, _⟩ | ⟨_, hmem⟩) (⟨rfl, _⟩ | ⟨_, hmem'⟩)
    · rfl
    · cases hmem'
    · cases hmem
    · cases hmem
  | cons member members ih =>
    obtain ⟨name, value⟩ := member
    intro input output hnodup hinput houtput
    have hnodup' := (List.nodup_cons.mp hnodup).2
    rw [visitMap]
    split
    · rename_i hname
      subst hname
      obtain ⟨rfl, hvalue, hinput⟩ := hinput.head hnodup
      rw [hvalue]
      exact ih hnodup' hinput (houtput.tail (by decide))
    split
    · rename_i hne hname
      subst hname
      obtain ⟨rfl, hvalue, houtput⟩ := houtput.head hnodup
      rw [hvalue]
      exact ih hnodup' (hinput.tail hne) houtput
    · rename_i hne hne'
      exact ih hnodup' (hinput.tail hne) (houtput.tail hne')

end Rust

/-! ## the names of the fields -/

theorem Rust.names (bundle : Rust.EthConsensusProofBundleAndWindow) :
    bundle.members.map Prod.fst = ["input_block_number", "output_block_number"] := rfl

theorem Rust.names_nodup (bundle : Rust.EthConsensusProofBundleAndWindow) :
    (bundle.members.map Prod.fst).Nodup := by
  rw [Rust.names]
  decide

theorem Rust.EthConsensusProofBundleAndWindow.members_integers {bound : Nat}
    (bundle : Rust.EthConsensusProofBundleAndWindow)
    (hinput : bundle.inputBlockNumber.toNat < bound)
    (houtput : bundle.outputBlockNumber.toNat < bound) :
    ∀ member ∈ bundle.members, ∃ n : Nat, n < bound ∧ member.2 = .int n := by
  intro member hmember
  rcases List.mem_cons.mp hmember with rfl | hmember
  · exact ⟨_, hinput, rfl⟩
  · rw [List.mem_singleton.mp hmember]
    exact ⟨_, houtput, rfl⟩

theorem TypeScript.names (bundle : TypeScript.EthConsensusProofBundleAndWindow) :
    bundle.members.map Prod.fst
      = ["ethConsensusProofBundle", "inputBlockNumber", "outputBlockNumber"] := rfl

theorem TypeScript.names_nodup (bundle : TypeScript.EthConsensusProofBundleAndWindow) :
    (bundle.members.map Prod.fst).Nodup := by
  rw [TypeScript.names]
  decide

/-! ## each program reads its own bundles -/

section
variable {runtime : Runtime}

theorem Rust.deserialise_serialise (h : runtime.Standard)
    (bundle : Rust.EthConsensusProofBundleAndWindow) :
    Rust.deserialiseEthConsensusProofBundle runtime
      (Rust.serialiseEthConsensusProofBundle runtime bundle) = .ok bundle := by
  have hread : (runtime.serdeJson.read (runtime.serdeJson.write bundle.toJson)).bind
      EthConsensusProofBundleAndWindow.ofJson = some bundle := by
    have hintegers := bundle.members_integers bundle.inputBlockNumber.toNat_lt
      bundle.outputBlockNumber.toNat_lt
    obtain ⟨v, hv⟩ := Option.isSome_iff_exists.mp (h.rust.integers (names_nodup bundle) hintegers)
    obtain ⟨members, rfl, hnames, hmembers⟩ := h.rust.object (names_nodup bundle) hv
    unfold EthConsensusProofBundleAndWindow.toJson
    rw [hv]
    refine visitMap_eq_some (hnames.nodup_iff.mpr (names_nodup bundle))
      (Or.inr ⟨rfl, hmembers _ _ bundle.inputBlockNumber.toNat_lt ?_⟩)
      (Or.inr ⟨rfl, hmembers _ _ bundle.outputBlockNumber.toNat_lt ?_⟩)
    · exact List.mem_cons_self
    · exact List.mem_cons_of_mem _ List.mem_cons_self
  unfold deserialiseEthConsensusProofBundle serialiseEthConsensusProofBundle
  simp only [utf8?_utf8, hread]

/-- a text without a byte order mark is what its bytes are decoded to -/
theorem TypeScript.decode_utf8 {s : String} (h : s.toList.head? ≠ some '\uFEFF') :
    TypeScript.decode runtime (utf8 s) = s := by
  unfold TypeScript.decode
  rw [utf8?_utf8]
  show (match s.toList with | '\uFEFF' :: chars => String.ofList chars | _ => s) = s
  split
  · rename_i heq
    rw [heq] at h
    exact absurd rfl h
  · rfl

theorem TypeScript.deserialise_serialise (h : runtime.Standard)
    {bundle : TypeScript.EthConsensusProofBundleAndWindow} (hinput : bundle.inputBlockNumber < 2^53)
    (houtput : bundle.outputBlockNumber < 2^53) :
    ∃ v, TypeScript.deserialiseEthConsensusProofBundle runtime
        (TypeScript.serialiseEthConsensusProofBundle runtime bundle) = some v ∧
      TypeScript.property v "inputBlockNumber" = some (.int bundle.inputBlockNumber) ∧
      TypeScript.property v "outputBlockNumber" = some (.int bundle.outputBlockNumber) := by
  obtain ⟨v, hv⟩ := Option.isSome_iff_exists.mp (h.parse_stringify bundle.toJson)
  obtain ⟨members, rfl, hnames, hmembers⟩ := h.typeScript.object (names_nodup bundle) hv
  have hnodup := hnames.nodup_iff.mpr (names_nodup bundle)
  unfold deserialiseEthConsensusProofBundle serialiseEthConsensusProofBundle
  rw [decode_utf8 (h.typeScriptMark _)]
  refine ⟨_, hv, property_eq_some hnodup (hmembers _ _ hinput ?_),
    property_eq_some hnodup (hmembers _ _ houtput ?_)⟩
  · exact List.mem_cons_of_mem _ List.mem_cons_self
  · exact List.mem_cons_of_mem _ (List.mem_cons_of_mem _ List.mem_cons_self)

/-! ## neither reads the other's -/

theorem Rust.deserialise_typeScript (h : runtime.Standard)
    (bundle : TypeScript.EthConsensusProofBundleAndWindow) :
    Rust.deserialiseEthConsensusProofBundle runtime
        (TypeScript.serialiseEthConsensusProofBundle runtime bundle)
      = .error "Failed to parse proof bundle JSON" := by
  have hread : (runtime.serdeJson.read (runtime.js.write bundle.toJson)).bind
      Rust.EthConsensusProofBundleAndWindow.ofJson = none := by
    cases hv : runtime.serdeJson.read (runtime.js.write bundle.toJson) with
    | none => rfl
    | some v =>
      obtain ⟨members, rfl, hnames, _⟩ := h.toRust.object (TypeScript.names_nodup bundle) hv
      rw [TypeScript.names] at hnames
      exact Rust.visitMap_missing (fun hmem => absurd (hnames.subset hmem) (by decide)) none
  unfold Rust.deserialiseEthConsensusProofBundle TypeScript.serialiseEthConsensusProofBundle
  simp only [utf8?_utf8, hread]

theorem TypeScript.deserialise_rust (h : runtime.Standard)
    (bundle : Rust.EthConsensusProofBundleAndWindow) {v : Json}
    (hv : TypeScript.deserialiseEthConsensusProofBundle runtime
      (Rust.serialiseEthConsensusProofBundle runtime bundle) = some v) :
    TypeScript.property v "inputBlockNumber" = none ∧
      TypeScript.property v "outputBlockNumber" = none := by
  unfold TypeScript.deserialiseEthConsensusProofBundle Rust.serialiseEthConsensusProofBundle at hv
  rw [TypeScript.decode_utf8 (h.rustMark _)] at hv
  obtain ⟨members, rfl, hnames, _⟩ := h.toTypeScript.object (Rust.names_nodup bundle) hv
  rw [Rust.names] at hnames
  exact ⟨property_eq_none fun hmem => absurd (hnames.subset hmem) (by decide),
    property_eq_none fun hmem => absurd (hnames.subset hmem) (by decide)⟩

/-- the bundle of the other program is read, below the integers that JavaScript represents -/
theorem TypeScript.deserialise_rust_isSome (h : runtime.Standard)
    {bundle : Rust.EthConsensusProofBundleAndWindow} (hinput : bundle.inputBlockNumber.toNat < 2^53)
    (houtput : bundle.outputBlockNumber.toNat < 2^53) :
    (TypeScript.deserialiseEthConsensusProofBundle runtime
      (Rust.serialiseEthConsensusProofBundle runtime bundle)).isSome := by
  unfold TypeScript.deserialiseEthConsensusProofBundle Rust.serialiseEthConsensusProofBundle
  rw [TypeScript.decode_utf8 (h.rustMark _)]
  exact h.toTypeScript.integers (Rust.names_nodup bundle) (bundle.members_integers hinput houtput)

/-! ## looking up -/

variable (runtime) {ε Receipt : Type} (client : GolemBaseClient ε Receipt)

/-- the lookup returns a bundle with these block numbers -/
def Rust.Returns (targetBlockNumber : UInt64) (inputBlockNumber outputBlockNumber : Nat) : Prop :=
  ∃ bundle, Rust.getEthConsensusProofBundleEntity runtime client targetBlockNumber
      = .ok (some bundle) ∧
    bundle.inputBlockNumber.toNat = inputBlockNumber ∧
    bundle.outputBlockNumber.toNat = outputBlockNumber

def TypeScript.Returns (targetBlockNumber inputBlockNumber outputBlockNumber : Nat) : Prop :=
  ∃ bundle, TypeScript.getEthConsensusProofBundleEntity runtime client targetBlockNumber
      = .ok (some bundle) ∧
    TypeScript.property bundle "inputBlockNumber" = some (.int inputBlockNumber) ∧
    TypeScript.property bundle "outputBlockNumber" = some (.int outputBlockNumber)

/-- for a target in its window, a bundle that one program has stored and that the query of the other
one finds first is what the other one returns -/
structure Interoperate : Prop where
  toRust : ∀ (bundle : TypeScript.EthConsensusProofBundleAndWindow) (target : UInt64)
    (entity : Entity) (rest : List Entity), bundle.inputBlockNumber ≤ target.toNat →
      target.toNat ≤ bundle.outputBlockNumber → bundle.outputBlockNumber < 2^53 →
      entity.storageValue = (TypeScript.createProofEntity runtime bundle).data →
      client.queryEntities (Rust.query target) = .ok (entity :: rest) →
        Rust.Returns runtime client target bundle.inputBlockNumber bundle.outputBlockNumber
  toTypeScript : ∀ (bundle : Rust.EthConsensusProofBundleAndWindow) (target : Nat)
    (entity : Entity) (rest : List Entity), bundle.inputBlockNumber.toNat ≤ target →
      target ≤ bundle.outputBlockNumber.toNat → bundle.outputBlockNumber.toNat < 2^53 →
      entity.storageValue = (Rust.createProofEntity runtime bundle).data →
      client.queryEntities (TypeScript.query target) = .ok (entity :: rest) →
        TypeScript.Returns runtime client target bundle.inputBlockNumber.toNat
          bundle.outputBlockNumber.toNat

variable {runtime client} {entity : Entity} {rest : List Entity}

theorem query_eq (target : UInt64) : Rust.query target = TypeScript.query target.toNat := rfl

/-- the entities of the two programs differ in their data alone -/
theorem createProofEntity_eq {bundle : Rust.EthConsensusProofBundleAndWindow}
    {bundle' : TypeScript.EthConsensusProofBundleAndWindow}
    (hinput : bundle'.inputBlockNumber = bundle.inputBlockNumber.toNat)
    (houtput : bundle'.outputBlockNumber = bundle.outputBlockNumber.toNat) (data : Bytes) :
    { Rust.createProofEntity runtime bundle with data }
      = { TypeScript.createProofEntity runtime bundle' with data } := by
  unfold Rust.createProofEntity TypeScript.createProofEntity
  rw [hinput, houtput]
  rfl

theorem Rust.get_rust (h : runtime.Standard) {bundle : Rust.EthConsensusProofBundleAndWindow}
    {target : UInt64} (hentity : entity.storageValue = (Rust.createProofEntity runtime bundle).data)
    (hquery : client.queryEntities (Rust.query target) = .ok (entity :: rest)) :
    Rust.Returns runtime client target bundle.inputBlockNumber.toNat
      bundle.outputBlockNumber.toNat := by
  have hread := Rust.deserialise_serialise h bundle
  have hdata : entity.storageValue = Rust.serialiseEthConsensusProofBundle runtime bundle := hentity
  refine ⟨bundle, ?_, rfl, rfl⟩
  simp only [Rust.getEthConsensusProofBundleEntity, hquery, hdata, hread]

theorem TypeScript.get_typeScript (h : runtime.Standard)
    {bundle : TypeScript.EthConsensusProofBundleAndWindow} {target : Nat}
    (hinput : bundle.inputBlockNumber < 2^53) (houtput : bundle.outputBlockNumber < 2^53)
    (hentity : entity.storageValue = (TypeScript.createProofEntity runtime bundle).data)
    (hquery : client.queryEntities (TypeScript.query target) = .ok (entity :: rest)) :
    TypeScript.Returns runtime client target bundle.inputBlockNumber bundle.outputBlockNumber := by
  obtain ⟨v, hread, hproperties⟩ := TypeScript.deserialise_serialise h hinput houtput
  have hdata : entity.storageValue
      = TypeScript.serialiseEthConsensusProofBundle runtime bundle := hentity
  refine ⟨v, ?_, hproperties⟩
  simp only [TypeScript.getEthConsensusProofBundleEntity, hquery, hdata, hread]

/-- the Rust program panics at a bundle of the other one -/
theorem Rust.get_typeScript (h : runtime.Standard)
    {bundle : TypeScript.EthConsensusProofBundleAndWindow} {target : UInt64}
    (hentity : entity.storageValue = (TypeScript.createProofEntity runtime bundle).data)
    (hquery : client.queryEntities (Rust.query target) = .ok (entity :: rest)) :
    Rust.getEthConsensusProofBundleEntity runtime client target
      = .error (.panic "Failed to parse proof bundle JSON") := by
  have hread := Rust.deserialise_typeScript h bundle
  have hdata : entity.storageValue
      = TypeScript.serialiseEthConsensusProofBundle runtime bundle := hentity
  simp only [Rust.getEthConsensusProofBundleEntity, hquery, hdata, hread]

/-- what the TypeScript program returns for a bundle of the other one has no block numbers -/
theorem TypeScript.get_rust (h : runtime.Standard)
    {bundle : Rust.EthConsensusProofBundleAndWindow} {target : Nat}
    (hentity : entity.storageValue = (Rust.createProofEntity runtime bundle).data)
    (hquery : client.queryEntities (TypeScript.query target) = .ok (entity :: rest)) {v : Json}
    (hget : TypeScript.getEthConsensusProofBundleEntity runtime client target = .ok (some v)) :
    TypeScript.property v "inputBlockNumber" = none ∧
      TypeScript.property v "outputBlockNumber" = none := by
  have hdata : entity.storageValue = Rust.serialiseEthConsensusProofBundle runtime bundle := hentity
  simp only [TypeScript.getEthConsensusProofBundleEntity, hquery, hdata] at hget
  split at hget
  · cases hget
  · rename_i hv
    obtain rfl := Option.some.inj (Except.ok.inj hget)
    exact TypeScript.deserialise_rust h bundle hv

/-- it does return something -/
theorem TypeScript.get_rust_some (h : runtime.Standard)
    {bundle : Rust.EthConsensusProofBundleAndWindow} {target : Nat}
    (hinput : bundle.inputBlockNumber.toNat < 2^53)
    (houtput : bundle.outputBlockNumber.toNat < 2^53)
    (hentity : entity.storageValue = (Rust.createProofEntity runtime bundle).data)
    (hquery : client.queryEntities (TypeScript.query target) = .ok (entity :: rest)) :
    ∃ v, TypeScript.getEthConsensusProofBundleEntity runtime client target = .ok (some v) := by
  have hdata : entity.storageValue = Rust.serialiseEthConsensusProofBundle runtime bundle := hentity
  obtain ⟨v, hv⟩ :=
    Option.isSome_iff_exists.mp (TypeScript.deserialise_rust_isSome h hinput houtput)
  refine ⟨v, ?_⟩
  simp only [TypeScript.getEthConsensusProofBundleEntity, hquery, hdata, hv]

/-- **The two codecs never interoperate.** With standard JSON libraries neither program returns a
bundle that the other one has stored, whatever the bundle and the target. -/
theorem never_interoperate {ε Receipt : Type} {runtime : Runtime} (h : runtime.Standard)
    (client : GolemBaseClient ε Receipt) (entity : Entity) (rest : List Entity) :
    (∀ (bundle : TypeScript.EthConsensusProofBundleAndWindow) (target : UInt64),
      entity.storageValue = (TypeScript.createProofEntity runtime bundle).data →
      client.queryEntities (Rust.query target) = .ok (entity :: rest) →
        ¬ Rust.Returns runtime client target bundle.inputBlockNumber bundle.outputBlockNumber) ∧
    (∀ (bundle : Rust.EthConsensusProofBundleAndWindow) (target : Nat),
      entity.storageValue = (Rust.createProofEntity runtime bundle).data →
      client.queryEntities (TypeScript.query target) = .ok (entity :: rest) →
        ¬ TypeScript.Returns runtime client target bundle.inputBlockNumber.toNat
          bundle.outputBlockNumber.toNat) := by
  constructor
  · rintro bundle target hentity hquery ⟨read, hget, _⟩
    cases (Rust.get_typeScript h hentity hquery).symm.trans hget
  · rintro bundle target hentity hquery ⟨read, hget, hinput, _⟩
    cases (TypeScript.get_rust h hentity hquery hget).1.symm.trans hinput

end

/-! ## two libraries without blanks -/

namespace Devnet

/-- both programs read and write JSON without blanks -/
def runtime : Runtime where
  serdeJson := { write := Json.toText, read := Json.ofText }
  js := { write := Json.toText, read := Json.ofText }
  replaceInvalid := fun _ => "\uFFFD"

theorem carries (bound : Nat) : Carries bound runtime.serdeJson runtime.js where
  object := by
    intro members v _ hv
    obtain rfl := Option.some.inj ((Json.ofText_toText (.object members)).symm.trans hv)
    exact ⟨members, rfl, List.Perm.refl _, fun _ _ _ h => h⟩
  integers := by
    intro members _ _
    exact Option.isSome_iff_exists.mpr ⟨_, Json.ofText_toText (.object members)⟩

theorem no_mark (v : Json) : v.toText.toList.head? ≠ some '\uFEFF' := by
  intro hmark
  unfold Json.toText at hmark
  rw [String.toList_ofList, ← List.append_nil v.print] at hmark
  exact v.print_head?_ne (by decide) (by decide) [] _ hmark rfl

theorem runtime_standard : runtime.Standard where
  rust := carries _
  typeScript := carries _
  toRust := carries _
  toTypeScript := carries _
  rustMark := no_mark
  typeScriptMark := no_mark
  parse_stringify := fun v => Option.isSome_iff_exists.mpr ⟨v, Json.ofText_toText v⟩

/-- every query finds one entity -/
def serves (entity : Entity) : GolemBaseClient String Unit where
  createEntities := fun _ => .ok [()]
  queryEntities := fun _ => .ok [entity]

def fromRust : Rust.EthConsensusProofBundleAndWindow where
  inputBlockNumber := 100
  outputBlockNumber := 200

def storedByRust : Entity where
  storageValue := (Rust.createProofEntity runtime fromRust).data

def fromTypeScript : TypeScript.EthConsensusProofBundleAndWindow where
  ethConsensusProofBundle := .object [("contract_storage_slots", .array [])]
  inputBlockNumber := 100
  outputBlockNumber := 200

def storedByTypeScript : Entity where
  storageValue := (TypeScript.createProofEntity runtime fromTypeScript).data

example : storedByRust.storageValue
    = utf8 "\x7b\"input_block_number\":100,\"output_block_number\":200\x7d" := by rfl

end Devnet

/-- a lookup of block 150 in each direction -/
theorem never_interoperate_devnet :
    ¬ Rust.Returns Devnet.runtime (Devnet.serves Devnet.storedByTypeScript) 150 100 200 ∧
      ¬ TypeScript.Returns Devnet.runtime (Devnet.serves Devnet.storedByRust) 150 100 200 :=
  ⟨(never_interoperate Devnet.runtime_standard _ Devnet.storedByTypeScript []).1
      Devnet.fromTypeScript 150 rfl rfl,
    (never_interoperate Devnet.runtime_standard _ Devnet.storedByRust []).2
      Devnet.fromRust 150 rfl rfl⟩

/-- the Rust program panics at block 150 of a bundle from 100 to 200, and the TypeScript program
returns an object without block numbers -/
theorem codecs_disagree :
    Devnet.runtime.Standard ∧
      Rust.getEthConsensusProofBundleEntity Devnet.runtime
          (Devnet.serves Devnet.storedByTypeScript) 150
        = .error (.panic "Failed to parse proof bundle JSON") ∧
      ¬ Interoperate Devnet.runtime (Devnet.serves Devnet.storedByTypeScript) ∧
      (∃ v, TypeScript.getEthConsensusProofBundleEntity Devnet.runtime
          (Devnet.serves Devnet.storedByRust) 150 = .ok (some v) ∧
        TypeScript.property v "inputBlockNumber" = none ∧
        TypeScript.property v "outputBlockNumber" = none) ∧
      ¬ Interoperate Devnet.runtime (Devnet.serves Devnet.storedByRust) := by
  have htypeScript : Devnet.storedByTypeScript.storageValue
      = (TypeScript.createProofEntity Devnet.runtime Devnet.fromTypeScript).data := rfl
  have hrust : Devnet.storedByRust.storageValue
      = (Rust.createProofEntity Devnet.runtime Devnet.fromRust).data := rfl
  have hpanic : Rust.getEthConsensusProofBundleEntity Devnet.runtime
      (Devnet.serves Devnet.storedByTypeScript) 150
        = .error (.panic "Failed to parse proof bundle JSON") :=
    Rust.get_typeScript Devnet.runtime_standard htypeScript rfl
  obtain ⟨v, hv⟩ : ∃ v, TypeScript.getEthConsensusProofBundleEntity Devnet.runtime
      (Devnet.serves Devnet.storedByRust) 150 = .ok (some v) :=
    TypeScript.get_rust_some Devnet.runtime_standard (by decide) (by decide) hrust rfl
  have hproperties := TypeScript.get_rust Devnet.runtime_standard hrust rfl hv
  refine ⟨Devnet.runtime_standard, hpanic, fun h => ?_, ⟨v, hv, hproperties⟩, fun h => ?_⟩
  · obtain ⟨read, hget, _⟩ := h.toRust Devnet.fromTypeScript 150 Devnet.storedByTypeScript []
      (by decide) (by decide) (by decide) htypeScript rfl
    cases hpanic.symm.trans hget
  · obtain ⟨read, hget, hinput, _⟩ := h.toTypeScript Devnet.fromRust 150 Devnet.storedByRust []
      (by decide) (by decide) (by decide) hrust rfl
    obtain rfl := Option.some.inj (Except.ok.inj (hv.symm.trans hget))
    cases hproperties.1.symm.trans hinput

end ZkSymbiotic.Golem
