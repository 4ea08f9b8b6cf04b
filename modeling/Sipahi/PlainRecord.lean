import Sipahi.LittleEndian
import Sipahi.StructLayout
import Mathlib.Data.List.Forall2
import Mathlib.Data.List.ReduceOption
import Mathlib.Data.Vector.Basic

/-!
# Records of plain data in memory

A `repr(C)` record as the bytes that stand for it: its fields in order, and bytes without a value
where the layout leaves a gap.
-/
namespace PlainRecord

open LittleEndian StructLayout

/-- A type each of whose bit patterns is a value. -/
structure Plain (α : Type*) where
  layout : Layout
  write : α → List UInt8
  read : List UInt8 → α
  length_write : ∀ a, (write a).length = layout.size
  read_write : ∀ a, read (write a) = a
  write_read : ∀ bytes, bytes.length = layout.size → write (read bytes) = bytes

variable {α β : Type*}

def Plain.equiv (d : Plain α) (e : α ≃ β) : Plain β where
  layout := d.layout
  write b := d.write (e.symm b)
  read bytes := e (d.read bytes)
  length_write b := d.length_write (e.symm b)
  read_write b := by simp [d.read_write]
  write_read bytes h := by simp [d.write_read bytes h]

/-! ## Words and arrays -/

def Plain.byte : Plain UInt8 where
  layout := Layout.byte
  write b := [b]
  read bytes := bytes.headD 0
  length_write _ := rfl
  read_write _ := rfl
  write_read bytes h := by
    obtain ⟨b, rfl⟩ := List.length_eq_one_iff.mp h
    rfl

/-- A word of `width` bytes, aligned to its width. -/
def Plain.word (width : ℕ) [NeZero width] (toNat : α → ℕ) (ofNat : ℕ → α)
    (hlt : ∀ a, toNat a < 256 ^ width) (hof : ∀ a, ofNat (toNat a) = a)
    (hto : ∀ n < 256 ^ width, toNat (ofNat n) = n) : Plain α where
  layout := ⟨width, width, NeZero.pos width, dvd_rfl⟩
  write a := toLeBytes width (toNat a)
  read bytes := ofNat (ofLeBytes bytes)
  length_write _ := length_toLeBytes _ _
  read_write a := by rw [ofLeBytes_toLeBytes, Nat.mod_eq_of_lt (hlt a), hof]
  write_read bytes h := by
    have hbound := ofLeBytes_lt bytes
    rw [h] at hbound
    rw [hto _ hbound]
    exact toLeBytes_ofLeBytes h

theorem neZero_one : NeZero 1 := ⟨one_ne_zero⟩

theorem neZero_two : NeZero 2 := ⟨two_ne_zero⟩

theorem neZero_four : NeZero 4 := ⟨four_ne_zero⟩

theorem neZero_eight : NeZero 8 := ⟨Nat.succ_ne_zero 7⟩

def Plain.u16 : Plain UInt16 :=
  @Plain.word _ 2 neZero_two UInt16.toNat UInt16.ofNat (fun a => a.toNat_lt) (fun _ => UInt16.ofNat_toNat)
    fun _ hn => UInt16.toNat_ofNat_of_lt' hn

def Plain.u32 : Plain UInt32 :=
  @Plain.word _ 4 neZero_four UInt32.toNat UInt32.ofNat (fun a => a.toNat_lt) (fun _ => UInt32.ofNat_toNat)
    fun _ hn => UInt32.toNat_ofNat_of_lt' hn

def Plain.u64 : Plain UInt64 :=
  @Plain.word _ 8 neZero_eight UInt64.toNat UInt64.ofNat (fun a => a.toNat_lt) (fun _ => UInt64.ofNat_toNat)
    fun _ hn => UInt64.toNat_ofNat_of_lt' hn

def Plain.readAll (d : Plain α) : ℕ → List UInt8 → List α
  | 0, _ => []
  | n + 1, bytes => d.read (bytes.take d.layout.size) :: d.readAll n (bytes.drop d.layout.size)

variable (d : Plain α)

theorem length_readAll (n : ℕ) (bytes : List UInt8) : (d.readAll n bytes).length = n := by
  induction n generalizing bytes with
  | zero => rfl
  | succ n ih => simp [Plain.readAll, ih]

theorem readAll_flatMap (l : List α) : d.readAll l.length (l.flatMap d.write) = l := by
  induction l with
  | nil => rfl
  | cons a l ih =>
    have hlength := d.length_write a
    simp [Plain.readAll, ← hlength, d.read_write, ih]

theorem flatMap_readAll {n : ℕ} {bytes : List UInt8} (h : bytes.length = n * d.layout.size) :
    (d.readAll n bytes).flatMap d.write = bytes := by
  induction n generalizing bytes with
  | zero =>
    rw [Nat.zero_mul] at h
    exact (List.eq_nil_of_length_eq_zero h).symm
  | succ n ih =>
    rw [Nat.succ_mul] at h
    have hhead : (bytes.take d.layout.size).length = d.layout.size := by
      simp only [List.length_take]
      omega
    have htail : (bytes.drop d.layout.size).length = n * d.layout.size := by
      simp only [List.length_drop]
      omega
    simp only [Plain.readAll, List.flatMap_cons, d.write_read _ hhead, ih htail,
      List.take_append_drop]

def Plain.array (n : ℕ) : Plain (List.Vector α n) where
  layout := d.layout.array n
  write v := v.toList.flatMap d.write
  read bytes := ⟨d.readAll n bytes, length_readAll d n bytes⟩
  length_write v := by
    have hsizes : ∀ l : List α, (l.flatMap d.write).length = l.length * d.layout.size := by
      intro l
      simp [List.length_flatMap, d.length_write]
    rw [hsizes, v.toList_length]
    rfl
  read_write v := by
    obtain ⟨l, rfl⟩ := v
    exact Subtype.ext (readAll_flatMap d l)
  write_read bytes h := flatMap_readAll d h

/-! ## Fields in order -/

/-- Where the last field ends when the first one is placed from `start` on. -/
def endFrom (start : ℕ) (fields : List Layout) : ℕ :=
  fields.foldl (fun offset f => roundUp offset f.align + f.size) start

/-- No field leaves a gap before it. -/
def PackedFrom : ℕ → List Layout → Prop
  | _, [] => True
  | start, f :: fields => f.align ∣ start ∧ PackedFrom (start + f.size) fields

instance decidablePackedFrom : (start : ℕ) → (fields : List Layout) →
    Decidable (PackedFrom start fields)
  | _, [] => isTrue trivial
  | start, f :: fields =>
    have := decidablePackedFrom (start + f.size) fields
    inferInstanceAs (Decidable (f.align ∣ start ∧ PackedFrom (start + f.size) fields))

/-- Bytes that agree with an image wherever it has a value. -/
def Fills (bytes : List UInt8) (image : List (Option UInt8)) : Prop :=
  List.Forall₂ (fun b o => ∀ v ∈ o, b = v) bytes image

variable {bytes : List UInt8} {image image' : List (Option UInt8)}

theorem Fills.take (h : Fills bytes (image ++ image')) : Fills (bytes.take image.length) image :=
  List.forall₂_take_append bytes image image' h

theorem Fills.drop (h : Fills bytes (image ++ image')) : Fills (bytes.drop image.length) image' :=
  List.forall₂_drop_append bytes image image' h

theorem fills_map_some {l : List UInt8} : Fills bytes (l.map some) ↔ bytes = l := by
  rw [Fills, List.forall₂_map_right_iff]
  simp [List.forall₂_eq_eq_eq]

/-- The fields of a record, their bytes when they start at an offset, and how they are read. Bytes
that fill the gaps do not matter to the reading. -/
structure Record (α : Type*) where
  fields : List Layout
  image : ℕ → α → List (Option UInt8)
  read : ℕ → List UInt8 → α
  length_image : ∀ start a, start + (image start a).length = endFrom start fields
  read_image : ∀ start a bytes, Fills bytes (image start a) → read start bytes = a
  image_read : ∀ start bytes, PackedFrom start fields →
    start + bytes.length = endFrom start fields → image start (read start bytes) = bytes.map some

def Record.nil : Record Unit where
  fields := []
  image _ _ := []
  read _ _ := ()
  length_image _ _ := rfl
  read_image _ _ _ _ := rfl
  image_read start bytes _ h := by
    have hnil : bytes.length = 0 := by
      simp only [endFrom, List.foldl_nil] at h
      omega
    simp [List.eq_nil_of_length_eq_zero hnil]

theorem le_roundUp (n a : ℕ) : n ≤ roundUp n a := Nat.le_add_right _ _

/-- A field before the others. -/
def Record.cons (d : Plain β) (r : Record α) : Record (β × α) where
  fields := d.layout :: r.fields
  image start p := List.replicate (roundUp start d.layout.align - start) none ++
    ((d.write p.1).map some ++ r.image (roundUp start d.layout.align + d.layout.size) p.2)
  read start bytes :=
    let here := bytes.drop (roundUp start d.layout.align - start)
    (d.read (here.take d.layout.size),
      r.read (roundUp start d.layout.align + d.layout.size) (here.drop d.layout.size))
  length_image start p := by
    have hrest := r.length_image (roundUp start d.layout.align + d.layout.size) p.2
    have hgap := le_roundUp start d.layout.align
    simp only [List.length_append, List.length_replicate, List.length_map, d.length_write]
    rw [endFrom, List.foldl_cons, ← endFrom, ← hrest]
    omega
  read_image start p bytes h := by
    have hhere := h.drop
    rw [List.length_replicate] at hhere
    have hfirst := hhere.take
    have hrest := hhere.drop
    rw [List.length_map, d.length_write] at hfirst hrest
    dsimp only
    rw [fills_map_some.mp hfirst, d.read_write, r.read_image _ _ _ hrest]
  image_read start bytes hpacked h := by
    have hgap : roundUp start d.layout.align = start :=
      (roundUp_eq_self d.layout.align_pos).mpr hpacked.1
    rw [endFrom, List.foldl_cons, ← endFrom, hgap] at h
    have hrest := r.length_image (start + d.layout.size)
      (r.read (start + d.layout.size) (bytes.drop d.layout.size))
    have hfirst : (bytes.take d.layout.size).length = d.layout.size := by
      simp only [List.length_take]
      omega
    have hend : start + d.layout.size + (bytes.drop d.layout.size).length =
        endFrom (start + d.layout.size) r.fields := by
      simp only [List.length_drop]
      omega
    simp only [hgap, Nat.sub_self, List.drop_zero, List.replicate_zero, List.nil_append,
      d.write_read _ hfirst, r.image_read _ _ hpacked.2 hend, ← List.map_append,
      List.take_append_drop]

/-! ## Whole records -/

variable (r : Record α)

def Record.layout : Layout := @Layout.reprC r.fields 1 neZero_one

/-- The memory of a record, with the padding at its end. -/
def Record.memory (a : α) : List (Option UInt8) :=
  r.image 0 a ++ List.replicate (r.layout.size - structEnd r.fields) none

/-- What a read of the whole memory gives, if every byte has a value. -/
def initialized (memory : List (Option UInt8)) : Option (List UInt8) :=
  if memory.all Option.isSome then some memory.reduceOption else none

/-- A record without gaps. -/
structure Record.Solid : Prop where
  packed : PackedFrom 0 r.fields
  unpadded : r.layout.size = structEnd r.fields

theorem reduceOption_map_some (l : List UInt8) : (l.map some).reduceOption = l := by
  rw [List.reduceOption, List.filterMap_map]
  exact List.filterMap_some

theorem initialized_map_some (l : List UInt8) : initialized (l.map some) = some l := by
  have hall : (l.map some).all Option.isSome = true := by simp
  rw [initialized, if_pos hall, reduceOption_map_some]

variable {r}

theorem fills_getD (image : List (Option UInt8)) : Fills (image.map (·.getD 0)) image := by
  rw [Fills, List.forall₂_map_left_iff, List.forall₂_same]
  intro o _ v hv
  rw [Option.mem_def.mp hv, Option.getD_some]

/-- The memory of a record without gaps has a value everywhere. -/
theorem Record.Solid.memory_eq (h : r.Solid) (a : α) :
    ∃ bytes, r.memory a = bytes.map some ∧ bytes.length = r.layout.size ∧ r.read 0 bytes = a := by
  have hread := r.read_image 0 a _ (fills_getD (r.image 0 a))
  have hlength := r.length_image 0 a
  have hend : 0 + ((r.image 0 a).map (·.getD 0)).length = endFrom 0 r.fields := by
    rwa [List.length_map]
  have himage := r.image_read 0 _ h.packed hend
  rw [hread] at himage
  refine ⟨_, ?_, ?_, hread⟩
  · rw [Record.memory, h.unpadded, Nat.sub_self, List.replicate_zero, List.append_nil]
    exact himage
  · rw [h.unpadded]
    exact (Nat.zero_add _).symm.trans hend

theorem Record.Solid.memory_read (h : r.Solid) {bytes : List UInt8}
    (hlength : bytes.length = r.layout.size) : r.memory (r.read 0 bytes) = bytes.map some := by
  have hend : 0 + bytes.length = endFrom 0 r.fields := by
    rw [Nat.zero_add, hlength, h.unpadded]
    rfl
  rw [Record.memory, r.image_read 0 bytes h.packed hend, h.unpadded, Nat.sub_self,
    List.replicate_zero, List.append_nil]

/-- A record without gaps is plain data. -/
def Record.toPlain (r : Record α) (h : r.Solid) : Plain α where
  layout := r.layout
  write a := (r.memory a).reduceOption
  read := r.read 0
  length_write a := by
    obtain ⟨bytes, hbytes, hlength, -⟩ := h.memory_eq a
    rw [hbytes, reduceOption_map_some, hlength]
  read_write a := by
    obtain ⟨bytes, hbytes, -, hread⟩ := h.memory_eq a
    rw [hbytes, reduceOption_map_some, hread]
  write_read bytes hlength := by rw [h.memory_read hlength, reduceOption_map_some]


end PlainRecord
