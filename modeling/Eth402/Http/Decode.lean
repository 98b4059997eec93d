/-
How a request body becomes a request (`DecodeStrict`, internal/httpapi/server.go). A first walk over the body refuses an
object that has a name twice, comparing names as they are; then encoding/json fills the destination, matching names to
fields exactly or else without regard to case. The decoder is modelled with a record of its writes: the place each
stored member fills.
-/
import Eth402.Lib.Text
import Eth402.Lib.Provenance

namespace Eth402.Http.Decode

open Lib

/-! ## Values and types -/

/-- A parsed body, with the names as the decoder unquotes them and the members in order. -/
inductive Json
  | null
  | bool (b : Bool)
  | num (text : String)
  | str (text : String)
  | arr (vs : List Json)
  | obj (ms : List (String × Json))

/-- The types of destinations; `any` is the empty interface. -/
inductive Ty
  | string
  | bool
  | int
  | any
  | pointer (t : Ty)
  | slice (t : Ty)
  | map (t : Ty)
  | struct (fields : List (String × Ty))

/-- Decoded values; a pointer is what it points to, or `nil`. -/
inductive Val
  | nil
  | str (s : String)
  | bool (b : Bool)
  | int (n : Int)
  | num (text : String)
  | list (vs : List Val)
  | map (es : List (String × Val))
  | struct (fs : List (String × Val))

inductive Fault
  | unknownField (name : String)
  | typeMismatch

/-- Where a member goes. -/
inductive Step
  | field (name : String)
  | key (name : String)
  | index (i : Nat)
  deriving DecidableEq

mutual

/-- The zero value of a type. -/
def zero : Ty → Val
  | .string => .str ""
  | .bool => .bool false
  | .int => .int 0
  | .struct fields => .struct (zeroFields fields)
  | _ => .nil

def zeroFields : List (String × Ty) → List (String × Val)
  | [] => []
  | (name, t) :: fields => (name, zero t) :: zeroFields fields

end

/-- The type behind the pointers. -/
def base : Ty → Ty
  | .pointer t => base t
  | t => t

/-- The types `null` sets to nil; into others it stores nothing. -/
def nilable : Ty → Bool
  | .any | .pointer _ | .slice _ | .map _ => true
  | _ => false

def stores (t : Ty) : Json → Bool
  | .null => nilable t
  | _ => true

/-! ## The uniqueness walk -/

mutual

/-- `consumeUniqueJSONValue`. -/
def consumeUnique : Json → Except String Unit
  | .arr vs => consumeElements vs
  | .obj ms => consumeMembers [] ms
  | _ => .ok ()

def consumeElements : List Json → Except String Unit
  | [] => .ok ()
  | v :: vs =>
    match consumeUnique v with
    | .ok () => consumeElements vs
    | .error e => .error e

def consumeMembers (keys : List String) : List (String × Json) → Except String Unit
  | [] => .ok ()
  | (key, v) :: ms =>
    if key ∈ keys then .error ("duplicate JSON object key \"" ++ key ++ "\"")
    else
      match consumeUnique v with
      | .ok () => consumeMembers (key :: keys) ms
      | .error e => .error e

end

/-! ## The decoder -/

/-- What decoding gives: the value, what was wrong, and one block for each member that was stored. -/
structure Out (α : Type) where
  value : α
  faults : List Fault
  blocks : List (Block Step Nat)

def Out.writes {α : Type} (o : Out α) : List (Write Step Nat) := o.blocks.flatMap Block.writes

/-- The library: the parser (which refuses a body with anything after the value), the validity of UTF-8, the folding of
names, and the numbers of `int`. -/
structure Library where
  parse : List UInt8 → Except String Json
  utf8Valid : List UInt8 → Bool
  fold : String → String
  parseInt : String → Option Int

/-- The field a name goes to: the one with exactly this name, or else the first one with this name up to case. -/
def resolve (fold : String → String) (fields : List (String × Ty)) (name : String) : Option (String × Ty) :=
  match fields.find? fun f => f.1 = name with
  | some f => some f
  | none => fields.find? fun f => fold f.1 = fold name

def Val.fields : Val → List (String × Ty) → List (String × Val)
  | .struct fs, _ => fs
  | _, fields => zeroFields fields

def Val.entries : Val → List (String × Val)
  | .map es => es
  | _ => []

def Val.elements : Val → List Val
  | .list vs => vs
  | _ => []

def getNamed (fs : List (String × Val)) (name : String) : Val := (fs.lookup name).getD .nil

/-- Replace the entry of this name, or add it. -/
def setNamed (name : String) (v : Val) : List (String × Val) → List (String × Val)
  | [] => [(name, v)]
  | e :: rest => if e.1 = name then (name, v) :: rest else e :: setNamed name v rest

def block (t : Ty) (step : Step) (i : Nat) (v : Json) (inner : List (Write Step Nat)) : List (Block Step Nat) :=
  if stores t v then [⟨step, i, inner⟩] else []

section Decoder

variable (lib : Library)

mutual

/-- Decoding a value into a place of type `t` that holds `old`. -/
def store (t : Ty) (old : Val) : Json → Out Val
  | .null => ⟨if nilable t then .nil else old, [], []⟩
  | .bool b =>
    match base t with
    | .bool => ⟨.bool b, [], []⟩
    | .any => ⟨.bool b, [], []⟩
    | _ => ⟨old, [.typeMismatch], []⟩
  | .num text =>
    match base t with
    | .int =>
      match lib.parseInt text with
      | some n => ⟨.int n, [], []⟩
      | none => ⟨old, [.typeMismatch], []⟩
    | .any => ⟨.num text, [], []⟩
    | _ => ⟨old, [.typeMismatch], []⟩
  | .str s =>
    match base t with
    | .string => ⟨.str s, [], []⟩
    | .any => ⟨.str s, [], []⟩
    | _ => ⟨old, [.typeMismatch], []⟩
  | .arr vs =>
    match base t with
    | .slice t =>
      let o := storeElements t old.elements 0 vs
      ⟨.list o.value, o.faults, o.blocks⟩
    | .any =>
      let o := storeElements .any [] 0 vs
      ⟨.list o.value, o.faults, o.blocks⟩
    | _ => ⟨old, [.typeMismatch], []⟩
  | .obj ms =>
    match base t with
    | .struct fields =>
      let o := storeFields fields (old.fields fields) 0 ms
      ⟨.struct o.value, o.faults, o.blocks⟩
    | .map t =>
      let o := storeEntries t old.entries 0 ms
      ⟨.map o.value, o.faults, o.blocks⟩
    | .any =>
      let o := storeEntries .any [] 0 ms
      ⟨.map o.value, o.faults, o.blocks⟩
    | _ => ⟨old, [.typeMismatch], []⟩

/-- The elements of an array, from place `i` on. -/
def storeElements (t : Ty) (old : List Val) (i : Nat) : List Json → Out (List Val)
  | [] => ⟨[], [], []⟩
  | v :: vs =>
    let o := store t (old.headD (zero t)) v
    let rest := storeElements t old.tail (i + 1) vs
    ⟨o.value :: rest.value, o.faults ++ rest.faults, block t (.index i) i v o.writes ++ rest.blocks⟩

/-- The members of an object that fills a map: each value is decoded on its own. -/
def storeEntries (t : Ty) (old : List (String × Val)) (i : Nat) : List (String × Json) → Out (List (String × Val))
  | [] => ⟨old, [], []⟩
  | (key, v) :: ms =>
    let o := store t (zero t) v
    let rest := storeEntries t (setNamed key o.value old) (i + 1) ms
    ⟨rest.value, o.faults ++ rest.faults, block t (.key key) i v o.writes ++ rest.blocks⟩

/-- The members of an object that fills a struct; `DisallowUnknownFields` is set. -/
def storeFields (fields : List (String × Ty)) (old : List (String × Val)) (i : Nat) :
    List (String × Json) → Out (List (String × Val))
  | [] => ⟨old, [], []⟩
  | (name, v) :: ms =>
    match resolve lib.fold fields name with
    | none =>
      let rest := storeFields fields old (i + 1) ms
      ⟨rest.value, .unknownField name :: rest.faults, rest.blocks⟩
    | some f =>
      let o := store f.2 (getNamed old f.1) v
      let rest := storeFields fields (setNamed f.1 o.value old) (i + 1) ms
      ⟨rest.value, o.faults ++ rest.faults, block f.2 (.field f.1) i v o.writes ++ rest.blocks⟩

end

def maxRequestBody : Nat := 2 ^ 20

inductive DecodeError
  | tooLarge
  | notUtf8
  | malformed (text : String)
  | duplicate (text : String)
  | decode (fault : Fault)

/-- `DecodeStrict`, into a destination that holds its zero value. -/
def decodeStrict (t : Ty) (body : List UInt8) : Except DecodeError Val :=
  if maxRequestBody < body.length then .error .tooLarge
  else if lib.utf8Valid body = false then .error .notUtf8
  else
    match lib.parse body with
    | .error e => .error (.malformed e)
    | .ok j =>
      match consumeUnique j with
      | .error e => .error (.duplicate e)
      | .ok () =>
        let o := store lib t (zero t) j
        match o.faults with
        | [] => .ok o.value
        | fault :: _ => .error (.decode fault)

end Decoder

/-! ## Names -/

section Names

variable (fold : String → String)

mutual

/-- No struct of the type has two fields with one name up to case. -/
def wellNamed : Ty → Bool
  | .pointer t | .slice t | .map t => wellNamed t
  | .struct fields => (fields.map fun f => fold f.1).Nodup && wellNamedFields fields
  | _ => true

def wellNamedFields : List (String × Ty) → Bool
  | [] => true
  | (_, t) :: fields => wellNamed t && wellNamedFields fields

end

/-- The members that are stored in a field: the member's name and the field's. -/
def storedNames (fields : List (String × Ty)) (ms : List (String × Json)) : List (String × String) :=
  ms.filterMap fun m =>
    match resolve fold fields m.1 with
    | some f => if stores f.2 m.2 then some (m.1, f.1) else none
    | none => none

mutual

/-- In no object that fills a struct, two members with one name up to case are stored. -/
def namesDistinct (t : Ty) : Json → Prop
  | .arr vs =>
    match base t with
    | .slice t => elementsDistinct t vs
    | .any => elementsDistinct .any vs
    | _ => True
  | .obj ms =>
    match base t with
    | .struct fields => ((storedNames fold fields ms).map fun n => fold n.1).Nodup ∧ membersDistinct fields ms
    | .map t => entriesDistinct t ms
    | .any => entriesDistinct .any ms
    | _ => True
  | _ => True

def elementsDistinct (t : Ty) : List Json → Prop
  | [] => True
  | v :: vs => namesDistinct t v ∧ elementsDistinct t vs

def entriesDistinct (t : Ty) : List (String × Json) → Prop
  | [] => True
  | (_, v) :: ms => namesDistinct t v ∧ entriesDistinct t ms

def membersDistinct (fields : List (String × Ty)) : List (String × Json) → Prop
  | [] => True
  | (name, v) :: ms =>
    (match resolve fold fields name with
      | some f => namesDistinct f.2 v
      | none => True) ∧ membersDistinct fields ms

end

end Names

theorem wellNamed_base {fold : String → String} {t : Ty} (h : wellNamed fold t = true) :
    wellNamed fold (base t) = true := by
  induction t using base.induct with
  | case1 t ih =>
    rw [base]
    rw [wellNamed] at h
    exact ih h
  | case2 t hne =>
    have : base t = t := by cases t <;> first | rfl | exact absurd rfl (hne _)
    rw [this]
    exact h

theorem wellNamed_field {fold : String → String} {fields : List (String × Ty)} (h : wellNamedFields fold fields = true)
    {f : String × Ty} (hf : f ∈ fields) : wellNamed fold f.2 = true := by
  induction fields with
  | nil => cases hf
  | cons g fields ih =>
    rw [wellNamedFields, Bool.and_eq_true] at h
    rcases List.mem_cons.1 hf with rfl | hf
    · exact h.1
    · exact ih h.2 hf

theorem resolve_some {fold : String → String} {fields : List (String × Ty)} {name : String} {f : String × Ty}
    (h : resolve fold fields name = some f) : f ∈ fields ∧ fold f.1 = fold name := by
  unfold resolve at h
  split at h
  · rename_i g hg
    obtain rfl := Option.some.inj h
    have hname := List.find?_some hg
    exact ⟨List.mem_of_find?_eq_some hg, by rw [of_decide_eq_true hname]⟩
  · exact ⟨List.mem_of_find?_eq_some h, by simpa using List.find?_some h⟩

/-- With well-named fields, members go to one field exactly when their names are equal up to case. -/
theorem nodup_fields_iff {fold : String → String} {fields : List (String × Ty)}
    (h : (fields.map fun f => fold f.1).Nodup) (ms : List (String × Json)) :
    ((storedNames fold fields ms).map fun n => Step.field n.2).Nodup ↔
      ((storedNames fold fields ms).map fun n => fold n.1).Nodup := by
  have hstored : ∀ n ∈ storedNames fold fields ms, ∃ f ∈ fields, f.1 = n.2 ∧ fold f.1 = fold n.1 := by
    intro n hn
    obtain ⟨m, -, hm⟩ := List.mem_filterMap.1 hn
    split at hm
    · rename_i f hf
      split at hm
      · obtain rfl := Option.some.inj hm
        exact ⟨f, (resolve_some hf).1, rfl, (resolve_some hf).2⟩
      · cases hm
    · cases hm
  rw [List.Nodup, List.Nodup, List.pairwise_map, List.pairwise_map]
  refine List.Pairwise.iff_of_mem fun {m n} hm hn => not_congr ?_
  obtain ⟨f, hf, hfn, hff⟩ := hstored m hm
  obtain ⟨g, hg, hgn, hgf⟩ := hstored n hn
  rw [Step.field.injEq, ← hfn, ← hgn, ← hff, ← hgf]
  constructor
  · intro hname
    rw [hname]
  · intro hfold
    rw [List.inj_on_of_nodup_map h hf hg hfold]

/-! ## The blocks of one node -/

/-- Blocks of members from position `i` on, in order. -/
inductive Numbered : Nat → List (Block Step Nat) → Prop
  | nil (i : Nat) : Numbered i []
  | skip {i : Nat} {bs : List (Block Step Nat)} : Numbered (i + 1) bs → Numbered i bs
  | cons {i : Nat} {bs : List (Block Step Nat)} (step : Step) (inner : List (Write Step Nat)) :
      Proper inner → Numbered (i + 1) bs → Numbered i (⟨step, i, inner⟩ :: bs)

theorem Numbered.positions {i : Nat} {bs : List (Block Step Nat)} (h : Numbered i bs) :
    (bs.map Block.position).Nodup ∧ (∀ b ∈ bs, i ≤ b.position) ∧ ∀ b ∈ bs, Proper b.inner := by
  induction h with
  | nil => exact ⟨List.nodup_nil, nofun, nofun⟩
  | skip _ ih =>
    obtain ⟨hnodup, hle, hproper⟩ := ih
    exact ⟨hnodup, fun b hb => Nat.le_of_succ_le (hle b hb), hproper⟩
  | @cons i bs step inner hinner _ ih =>
    obtain ⟨hnodup, hle, hproper⟩ := ih
    refine ⟨List.nodup_cons.2 ⟨?_, hnodup⟩, ?_, ?_⟩
    · intro hmem
      obtain ⟨b, hb, hpos⟩ := List.mem_map.1 hmem
      have hpos : b.position = i := hpos
      have := hle b hb
      omega
    · intro b hb
      rcases List.mem_cons.1 hb with rfl | hb
      · exact Nat.le_refl i
      · exact Nat.le_of_succ_le (hle b hb)
    · intro b hb
      rcases List.mem_cons.1 hb with rfl | hb
      · exact hinner
      · exact hproper b hb

theorem Out.proper {α : Type} (o : Out α) : Proper o.writes := proper_flatMap o.blocks

theorem numbered_block {t : Ty} {step : Step} {i : Nat} {v : Json} {inner : List (Write Step Nat)}
    {rest : List (Block Step Nat)} (hinner : Proper inner) (hrest : Numbered (i + 1) rest) :
    Numbered i (block t step i v inner ++ rest) := by
  unfold block
  split
  · exact .cons step inner hinner hrest
  · exact .skip hrest

/-- The writes of a node whose blocks are numbered. -/
theorem unambiguous_blocks {bs : List (Block Step Nat)} (h : Numbered 0 bs) :
    Unambiguous (bs.flatMap Block.writes) ↔ (bs.map Block.step).Nodup ∧ ∀ b ∈ bs, Unambiguous b.inner :=
  unambiguous_flatMap h.positions.2.2 h.positions.1

section Blocks

variable (lib : Library)

theorem numbered_elements (t : Ty) (vs : List Json) (old : List Val) (i : Nat) :
    Numbered i (storeElements lib t old i vs).blocks := by
  induction vs generalizing old i with
  | nil => exact .nil i
  | cons v vs ih => exact numbered_block (Out.proper _) (ih old.tail (i + 1))

theorem numbered_entries (t : Ty) (ms : List (String × Json)) (old : List (String × Val)) (i : Nat) :
    Numbered i (storeEntries lib t old i ms).blocks := by
  induction ms generalizing old i with
  | nil => exact .nil i
  | cons m ms ih => exact numbered_block (Out.proper _) (ih _ (i + 1))

theorem numbered_fields (fields : List (String × Ty)) (ms : List (String × Json)) (old : List (String × Val))
    (i : Nat) :
    Numbered i (storeFields lib fields old i ms).blocks := by
  induction ms generalizing old i with
  | nil => exact .nil i
  | cons m ms ih =>
    rw [storeFields]
    split
    · exact .skip (ih old (i + 1))
    · exact numbered_block (Out.proper _) (ih _ (i + 1))

theorem steps_elements (t : Ty) (vs : List Json) (old : List Val) (i : Nat) :
    ∀ b ∈ (storeElements lib t old i vs).blocks, b.step = .index b.position := by
  induction vs generalizing old i with
  | nil => exact nofun
  | cons v vs ih =>
    intro b hb
    rcases List.mem_append.1 hb with hb | hb
    · unfold block at hb
      split at hb
      · rw [List.mem_singleton.1 hb]
      · cases hb
    · exact ih old.tail (i + 1) b hb

theorem steps_entries (t : Ty) (ms : List (String × Json)) (old : List (String × Val)) (i : Nat) :
    ((storeEntries lib t old i ms).blocks.map Block.step).Sublist (ms.map fun m => Step.key m.1) := by
  induction ms generalizing old i with
  | nil => exact List.Sublist.refl _
  | cons m ms ih =>
    have ih := ih (setNamed m.1 (store lib t (zero t) m.2).value old) (i + 1)
    rw [storeEntries, List.map_append, List.map_cons]
    unfold block
    split
    · exact ih.cons_cons _
    · exact ih.cons _

theorem steps_fields (fields : List (String × Ty)) (ms : List (String × Json)) (old : List (String × Val)) (i : Nat) :
    (storeFields lib fields old i ms).blocks.map Block.step =
      (storedNames lib.fold fields ms).map fun n => Step.field n.2 := by
  induction ms generalizing old i with
  | nil => rfl
  | cons m ms ih =>
    rw [storeFields, storedNames, List.filterMap_cons]
    cases hf : resolve lib.fold fields m.1 with
    | none => exact ih old (i + 1)
    | some f =>
      have ih := ih (setNamed f.1 (store lib f.2 (getNamed old f.1) m.2).value old) (i + 1)
      simp only [List.map_append]
      rw [ih]
      unfold block
      split <;> rfl

end Blocks

/-! ## Walk and decoder -/

theorem consumeMembers_nodup {keys : List String} {ms : List (String × Json)} (h : consumeMembers keys ms = .ok ()) :
    (ms.map Prod.fst).Nodup ∧ ∀ m ∈ ms, m.1 ∉ keys := by
  induction ms generalizing keys with
  | nil => exact ⟨List.nodup_nil, nofun⟩
  | cons m ms ih =>
    rw [consumeMembers] at h
    split at h
    · cases h
    · rename_i hnew
      split at h
      · obtain ⟨hnodup, hrest⟩ := ih h
        refine ⟨List.nodup_cons.2 ⟨?_, hnodup⟩, ?_⟩
        · intro hmem
          obtain ⟨m', hm', heq⟩ := List.mem_map.1 hmem
          exact hrest m' hm' (heq ▸ List.mem_cons_self ..)
        · intro m' hm'
          rcases List.mem_cons.1 hm' with rfl | hm'
          · exact hnew
          · exact fun hkeys => hrest m' hm' (List.mem_cons_of_mem _ hkeys)
      · cases h

theorem forall_block {t : Ty} {step : Step} {i : Nat} {v : Json} {inner : List (Write Step Nat)}
    {rest : List (Block Step Nat)} (hnull : stores t v = false → Unambiguous inner) :
    (∀ b ∈ block t step i v inner ++ rest, Unambiguous b.inner) ↔
      Unambiguous inner ∧ ∀ b ∈ rest, Unambiguous b.inner := by
  unfold block
  by_cases hstores : stores t v = true
  · simp [hstores]
  · simp [hstores, hnull (Bool.eq_false_iff.2 hstores)]

/-- A member that is not stored has nothing below it. -/
theorem unambiguous_of_not_stores (lib : Library) {t : Ty} {v : Json} (h : stores t v = false) (old : Val) :
    Unambiguous (store lib t old v).writes := by
  cases v with
  | null => rw [store]; exact nofun
  | bool b | num text | str s | arr vs | obj ms => cases h

theorem nodup_elements (lib : Library) (t : Ty) (vs : List Json) (old : List Val) :
    ((storeElements lib t old 0 vs).blocks.map Block.step).Nodup := by
  have hsteps : (storeElements lib t old 0 vs).blocks.map Block.step =
      ((storeElements lib t old 0 vs).blocks.map Block.position).map Step.index := by
    rw [List.map_map]
    exact List.map_congr_left (steps_elements lib t vs old 0)
  rw [hsteps]
  exact (numbered_elements lib t vs old 0).positions.1.map fun _ _ h => Step.index.inj h

theorem nodup_entries (lib : Library) (t : Ty) {ms : List (String × Json)} (h : consumeMembers [] ms = .ok ())
    (old : List (String × Val)) : ((storeEntries lib t old 0 ms).blocks.map Block.step).Nodup := by
  have hkeys := (consumeMembers_nodup h).1
  refine (steps_entries lib t ms old 0).nodup ?_
  rw [show (fun m : String × Json => Step.key m.1) = Step.key ∘ Prod.fst from rfl, ← List.map_map]
  exact hkeys.map fun _ _ h => Step.key.inj h

section Main

variable (lib : Library)

mutual

/-- On a body that passed the walk and was decoded without a fault, no place is filled twice exactly when the names of
the members that fill structs are distinct up to case. -/
theorem unambiguous_store : ∀ (j : Json) (t : Ty) (old : Val), wellNamed lib.fold t = true →
    (store lib t old j).faults = [] → consumeUnique j = .ok () →
    (Unambiguous (store lib t old j).writes ↔ namesDistinct lib.fold t j)
  | .null, t, old, _, _, _ => by
    rw [store]
    exact ⟨fun _ => trivial, fun _ => nofun⟩
  | .bool b, t, old, _, _, _ | .str s, t, old, _, _, _ => by
    rw [store]
    refine ⟨fun _ => trivial, fun _ => ?_⟩
    split <;> exact nofun
  | .num text, t, old, _, _, _ => by
    rw [store]
    refine ⟨fun _ => trivial, fun _ => ?_⟩
    split
    · split <;> exact nofun
    · exact nofun
    · exact nofun
  | .arr vs, t, old, hwell, hfaults, hwalk => by
    rw [store] at hfaults ⊢
    rw [namesDistinct]
    have hwell := wellNamed_base hwell
    cases hbase : base t with
    | slice t' =>
      rw [hbase, wellNamed] at hwell
      simp only [hbase] at hfaults ⊢
      exact (unambiguous_blocks (numbered_elements lib t' vs old.elements 0)).trans
        ((and_iff_right (nodup_elements lib t' vs old.elements)).trans
          (unambiguous_elements vs t' old.elements 0 hwell hfaults hwalk))
    | any =>
      simp only [hbase] at hfaults ⊢
      exact (unambiguous_blocks (numbered_elements lib .any vs [] 0)).trans
        ((and_iff_right (nodup_elements lib .any vs [])).trans
          (unambiguous_elements vs .any [] 0 rfl hfaults hwalk))
    | string | bool | int | pointer t' | map t' | struct fields => rw [hbase] at hfaults; cases hfaults
  | .obj ms, t, old, hwell, hfaults, hwalk => by
    rw [store] at hfaults ⊢
    rw [namesDistinct]
    have hwell := wellNamed_base hwell
    cases hbase : base t with
    | struct fields =>
      rw [hbase, wellNamed, Bool.and_eq_true, decide_eq_true_eq] at hwell
      simp only [hbase] at hfaults ⊢
      refine (unambiguous_blocks (numbered_fields lib fields ms (old.fields fields) 0)).trans (and_congr ?_ ?_)
      · rw [steps_fields]
        exact nodup_fields_iff hwell.1 ms
      · exact unambiguous_members ms [] fields (old.fields fields) 0 hwell.2 hfaults hwalk
    | map t' =>
      rw [hbase, wellNamed] at hwell
      simp only [hbase] at hfaults ⊢
      exact (unambiguous_blocks (numbered_entries lib t' ms old.entries 0)).trans
        ((and_iff_right (nodup_entries lib t' hwalk old.entries)).trans
          (unambiguous_entries ms [] t' old.entries 0 hwell hfaults hwalk))
    | any =>
      simp only [hbase] at hfaults ⊢
      exact (unambiguous_blocks (numbered_entries lib .any ms [] 0)).trans
        ((and_iff_right (nodup_entries lib .any hwalk [])).trans
          (unambiguous_entries ms [] .any [] 0 rfl hfaults hwalk))
    | string | bool | int | pointer t' | slice t' => rw [hbase] at hfaults; cases hfaults

theorem unambiguous_elements : ∀ (vs : List Json) (t : Ty) (old : List Val) (i : Nat), wellNamed lib.fold t = true →
    (storeElements lib t old i vs).faults = [] → consumeElements vs = .ok () →
    ((∀ b ∈ (storeElements lib t old i vs).blocks, Unambiguous b.inner) ↔ elementsDistinct lib.fold t vs)
  | [], t, old, i, _, _, _ => by
    rw [storeElements, elementsDistinct]
    exact ⟨fun _ => trivial, fun _ => nofun⟩
  | v :: vs, t, old, i, hwell, hfaults, hwalk => by
    rw [storeElements] at hfaults ⊢
    obtain ⟨hv, hvs⟩ := List.append_eq_nil_iff.1 hfaults
    rw [consumeElements] at hwalk
    split at hwalk
    · rename_i hwalkv
      rw [elementsDistinct, forall_block fun h => unambiguous_of_not_stores lib h _,
        unambiguous_store v t _ hwell hv hwalkv, unambiguous_elements vs t _ _ hwell hvs hwalk]
    · cases hwalk

theorem unambiguous_entries : ∀ (ms : List (String × Json)) (keys : List String) (t : Ty) (old : List (String × Val))
    (i : Nat), wellNamed lib.fold t = true →
    (storeEntries lib t old i ms).faults = [] → consumeMembers keys ms = .ok () →
    ((∀ b ∈ (storeEntries lib t old i ms).blocks, Unambiguous b.inner) ↔ entriesDistinct lib.fold t ms)
  | [], keys, t, old, i, _, _, _ => by
    rw [storeEntries, entriesDistinct]
    exact ⟨fun _ => trivial, fun _ => nofun⟩
  | (key, v) :: ms, keys, t, old, i, hwell, hfaults, hwalk => by
    rw [storeEntries] at hfaults ⊢
    obtain ⟨hv, hms⟩ := List.append_eq_nil_iff.1 hfaults
    rw [consumeMembers] at hwalk
    split at hwalk
    · cases hwalk
    · split at hwalk
      · rename_i hwalkv
        rw [entriesDistinct, forall_block fun h => unambiguous_of_not_stores lib h _,
          unambiguous_store v t _ hwell hv hwalkv, unambiguous_entries ms _ t _ _ hwell hms hwalk]
      · cases hwalk

theorem unambiguous_members : ∀ (ms : List (String × Json)) (keys : List String) (fields : List (String × Ty))
    (old : List (String × Val)) (i : Nat), wellNamedFields lib.fold fields = true →
    (storeFields lib fields old i ms).faults = [] → consumeMembers keys ms = .ok () →
    ((∀ b ∈ (storeFields lib fields old i ms).blocks, Unambiguous b.inner) ↔ membersDistinct lib.fold fields ms)
  | [], keys, fields, old, i, _, _, _ => by
    rw [storeFields, membersDistinct]
    exact ⟨fun _ => trivial, fun _ => nofun⟩
  | (name, v) :: ms, keys, fields, old, i, hwell, hfaults, hwalk => by
    rw [storeFields] at hfaults ⊢
    rw [consumeMembers] at hwalk
    split at hwalk
    · cases hwalk
    · split at hwalk
      · rename_i hwalkv
        rw [membersDistinct]
        cases hf : resolve lib.fold fields name with
        | none =>
          rw [hf] at hfaults
          cases hfaults
        | some f =>
          simp only [hf] at hfaults ⊢
          obtain ⟨hv, hms⟩ := List.append_eq_nil_iff.1 hfaults
          have hwellf := wellNamed_field hwell (resolve_some hf).1
          rw [forall_block fun h => unambiguous_of_not_stores lib h _, unambiguous_store v f.2 _ hwellf hv hwalkv,
            unambiguous_members ms _ fields _ _ hwell hms hwalk]
      · cases hwalk

end

end Main

/-! ## The handlers -/

/-- The destinations of the merchant and operator handlers (internal/httpapi/merchant.go, merchant_admin.go). -/
def forms : List (List (String × Ty)) := [
  -- register
  [("name", .string), ("business_email", .string), ("recipient_address", .string), ("website", .string),
    ("description", .string), ("accept_terms", .bool)],
  -- adminLink
  [("business_email", .string)],
  -- verifyEmail
  [("token", .string)],
  -- walletChallenge
  [("merchant_id", .string)],
  -- walletVerify
  [("merchant_id", .string), ("challenge_id", .string), ("message", .string), ("signature", .string)],
  -- createKey, adminCreateKey
  [("name", .string)],
  -- recipientChallenge, adminRecipientChallenge
  [("new_address", .string)],
  -- recipientVerify, adminWalletVerify, adminVerifyRecipientChange
  [("challenge_id", .string), ("message", .string), ("signature", .string)],
  -- suspend
  [("reason_code", .string)],
  -- adminWalletChallenge
  [("address", .string)],
  -- adminStatsConsent, adminPublicProfileConsent
  [("enabled", .pointer .bool)]]

/-- All destinations, with `verification.Request` over the payload and requirements of the x402 library. -/
def handlerTypes (payload requirements : Ty) : List Ty :=
  forms.map .struct ++
    [.struct [("x402Version", .int), ("paymentPayload", payload), ("paymentRequirements", requirements)]]

def ascii (s : String) : Bool := (chars s).all fun c => c.toNat < 128

/-- `foldName`, as encoding/json documents it: on ASCII names it forgets the case and nothing else. -/
def FoldLaws (fold : String → String) : Prop := ∀ x y, ascii x = true → ascii y = true →
    (fold x = fold y ↔ lower x = lower y)

theorem nodup_fold {fold : String → String} (hfold : FoldLaws fold) {fields : List (String × Ty)}
    (hascii : ∀ f ∈ fields, ascii f.1 = true) (h : (fields.map fun f => lower f.1).Nodup) :
    (fields.map fun f => fold f.1).Nodup := by
  rw [List.Nodup, List.pairwise_map] at h ⊢
  refine h.imp_of_mem fun {f g} hf hg hne heq => hne ?_
  exact (hfold f.1 g.1 (hascii f hf) (hascii g hg)).1 heq

theorem handlerTypes_wellNamed {fold : String → String} (hfold : FoldLaws fold) {payload requirements : Ty}
    (hpayload : wellNamed fold payload = true) (hrequirements : wellNamed fold requirements = true) {t : Ty}
    (ht : t ∈ handlerTypes payload requirements) : wellNamed fold t = true := by
  have hforms : ∀ form ∈ forms, (∀ f ∈ form, ascii f.1 = true) ∧ (form.map fun f => lower f.1).Nodup := by
    decide +kernel
  have hscalars : ∀ form ∈ forms, wellNamedFields fold form = true := by
    simp [forms, wellNamedFields, wellNamed]
  rcases List.mem_append.1 ht with ht | ht
  · obtain ⟨form, hform, rfl⟩ := List.mem_map.1 ht
    rw [wellNamed, Bool.and_eq_true, decide_eq_true_eq]
    exact ⟨nodup_fold hfold (hforms form hform).1 (hforms form hform).2, hscalars form hform⟩
  · rw [List.mem_singleton.1 ht, wellNamed, Bool.and_eq_true, decide_eq_true_eq]
    refine ⟨nodup_fold hfold ?_ ?_, ?_⟩
    · simp only [List.forall_mem_cons, List.not_mem_nil, false_implies, implies_true, and_true]
      decide +kernel
    · simp only [List.map_cons, List.map_nil]
      decide +kernel
    · simp [wellNamedFields, wellNamed, hpayload, hrequirements]

/-- For every body a handler accepts: no field of the decoded value is filled from two members of the body exactly when
no two members of an object that fills a struct are stored under names equal up to case. -/
theorem decodeStrict_unambiguous_iff (lib : Library) (hfold : FoldLaws lib.fold) (payload requirements : Ty)
    (hpayload : wellNamed lib.fold payload = true) (hrequirements : wellNamed lib.fold requirements = true) (t : Ty)
    (ht : t ∈ handlerTypes payload requirements) (body : List UInt8) (v : Val)
    (haccepted : decodeStrict lib t body = .ok v) :
    ∃ j, lib.parse body = .ok j ∧ (store lib t (zero t) j).value = v ∧
      (Unambiguous (store lib t (zero t) j).writes ↔ namesDistinct lib.fold t j) := by
  unfold decodeStrict at haccepted
  split at haccepted
  · cases haccepted
  · split at haccepted
    · cases haccepted
    · split at haccepted
      · cases haccepted
      · rename_i j hparse
        split at haccepted
        · cases haccepted
        · rename_i hwalk
          simp only at haccepted
          split at haccepted
          · rename_i hfaults
            have hwell := handlerTypes_wellNamed hfold hpayload hrequirements ht
            exact ⟨j, hparse, Except.ok.inj haccepted, unambiguous_store lib j t (zero t) hwell hfaults hwalk⟩
          · cases haccepted

/-! ## One field, two members -/

/-- A request to verify, without the members that are not needed here. -/
def sampleBody : List UInt8 :=
  utf8 ("\x7b\"x402Version\":2,\"paymentPayload\":\x7b\"X402Version\":2," ++
    "\"payload\":\x7b\"a\":\"1\",\"A\":\"2\"\x7d\x7d," ++
      "\"paymentRequirements\":\x7b\"scheme\":\"exact\",\"payTo\":\"0x1\"\x7d\x7d")

def sampleJson : Json :=
  .obj [("x402Version", .num "2"),
    ("paymentPayload", .obj [("X402Version", .num "2"), ("payload", .obj [("a", .str "1"), ("A", .str "2")])]),
    ("paymentRequirements", .obj [("scheme", .str "exact"), ("payTo", .str "0x1")])]

/-- A library that reads two bodies. -/
def sampleLibrary : Library where
  parse body := if body = utf8 "\x7b\"token\":\"a\",\"Token\":\"b\"\x7d" then
      .ok (.obj [("token", .str "a"), ("Token", .str "b")])
    else if body = sampleBody then .ok sampleJson
    else .error "unexpected end of JSON input"
  utf8Valid _ := true
  fold := lower
  parseInt text := if text = "2" then some 2 else none

def samplePayloadType : Ty := .struct [("x402Version", .int), ("payload", .map .any)]

def sampleRequirementsType : Ty := .struct [("scheme", .string), ("payTo", .string)]

def sampleRequestType : Ty :=
  .struct [("x402Version", .int), ("paymentPayload", samplePayloadType),
    ("paymentRequirements", sampleRequirementsType)]

def sampleValue : Val :=
  .struct [("x402Version", .int 2),
    ("paymentPayload", .struct [("x402Version", .int 2), ("payload", .map [("a", .str "1"), ("A", .str "2")])]),
    ("paymentRequirements", .struct [("scheme", .str "exact"), ("payTo", .str "0x1")])]

theorem parse_sampleBody : sampleLibrary.parse sampleBody = .ok sampleJson := by
  have hother : sampleBody ≠ utf8 "\x7b\"token\":\"a\",\"Token\":\"b\"\x7d" := by decide +kernel
  simp only [sampleLibrary, if_neg hother, if_true]

theorem decode_sampleBody : decodeStrict sampleLibrary sampleRequestType sampleBody = .ok sampleValue := by
  unfold decodeStrict
  rw [if_neg (by decide +kernel), if_neg (by decide), parse_sampleBody]
  rfl

theorem sampleJson_distinct : namesDistinct sampleLibrary.fold sampleRequestType sampleJson := by
  have hfold : lower "X402Version" = lower "x402Version" := by decide +kernel
  have hnames : ((lower "x402Version" ≠ lower "paymentPayload" ∧ lower "x402Version" ≠ lower "paymentRequirements") ∧
      lower "paymentPayload" ≠ lower "paymentRequirements") ∧
      lower "x402Version" ≠ lower "payload" ∧ lower "scheme" ≠ lower "payTo" := by decide +kernel
  simpa [sampleLibrary, sampleRequestType, samplePayloadType, sampleRequirementsType, sampleJson, namesDistinct, base,
    membersDistinct, entriesDistinct, resolve, storedNames, stores, hfold] using hnames

/-- The members of nested objects fill one field each; one of them is spelled in another case, and two names that differ
in the case only are keys of a map. -/
theorem decode_nested_members :
    Unambiguous (store sampleLibrary sampleRequestType (zero sampleRequestType) sampleJson).writes ∧
      (store sampleLibrary sampleRequestType (zero sampleRequestType) sampleJson).value = sampleValue := by
  obtain ⟨j, hparse, hvalue, hiff⟩ := decodeStrict_unambiguous_iff sampleLibrary (fun _ _ _ _ =>
    Iff.rfl) samplePayloadType
    sampleRequirementsType (by decide +kernel) (by decide +kernel) sampleRequestType
    (by simp [handlerTypes, sampleRequestType]) sampleBody sampleValue decode_sampleBody
  obtain rfl : sampleJson = j := Except.ok.inj (parse_sampleBody.symm.trans hparse)
  exact ⟨hiff.2 sampleJson_distinct, hvalue⟩

/-- A body with the members `token` and `Token` is accepted, and the field holds the second one. -/
theorem token_filled_twice :
    decodeStrict sampleLibrary (.struct [("token", .string)]) (utf8 "\x7b\"token\":\"a\",\"Token\":\"b\"\x7d") =
      .ok (.struct [("token", .str "b")]) ∧
    ¬ Unambiguous (store sampleLibrary (.struct [("token", .string)]) (zero (.struct [("token", .string)]))
      (.obj [("token", .str "a"), ("Token", .str "b")])).writes := by
  refine ⟨by rfl, fun h => ?_⟩
  have : [0] = [1] := h [.field "token"] [0] [1] (by decide +kernel) (by decide +kernel)
  cases this

end Eth402.Http.Decode
