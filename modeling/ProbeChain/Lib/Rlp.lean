/-
# Recursive length encoding

A byte-level serialisation of trees whose leaves are byte strings.  A string or a list is
written as a HEADER, which carries its length, followed by its content; a single byte below
`0x80` is its own encoding.  The decoder works on one value at a time: `split` reads the
header and cuts the content off the input, and the typed readers (`readBytes`, `readUint`,
`readBig`, `readArray`) accept the content only in its canonical form.

The fact the encoding exists for is that it loses nothing:

- `split_encodeString`, `split_encodeList` — what `split` cuts off is what was encoded;
- `Item.encode_inj` — two trees with the same encoding are the same tree.

Lengths are bounded by `2 ^ 64`, the widest length a header can carry.
-/
import ProbeChain.Lib.BigEndian

namespace ProbeChain.Rlp

open BigEndian Option List

/-! ## 1. Encoding -/

/-- The header of a value of `n` content bytes.  `base` is `0x80` for a string, `0xC0` for a
list; contents of 56 bytes or more carry the length of their length. -/
def head (base n : Nat) : Bytes :=
  if n < 56 then [UInt8.ofNat (base + n)]
  else UInt8.ofNat (base + 55 + (ofNat n).length) :: ofNat n

/-- A single byte below `0x80` needs no header. -/
def isSingle : Bytes → Bool
  | [b] => b < 0x80
  | _ => false

def encodeString (s : Bytes) : Bytes := if isSingle s then s else head 0x80 s.length ++ s

/-- A list is written as its concatenated elements under a list header. -/
def encodeList (payload : Bytes) : Bytes := head 0xC0 payload.length ++ payload

/-- A value to encode: a byte string, or a list of values. -/
inductive Item where
  | str (content : Bytes)
  | list (items : List Item)

mutual
def Item.encode : Item → Bytes
  | .str s => encodeString s
  | .list is => encodeList (Item.encodeAll is)
def Item.encodeAll : List Item → Bytes
  | [] => []
  | i :: is => i.encode ++ Item.encodeAll is
end

theorem Item.encode_str (s : Bytes) : (Item.str s).encode = encodeString s := by
  rw [Item.encode]

/-- An unsigned integer is the string of its minimal big-endian bytes. -/
def Item.nat (n : Nat) : Item := .str (ofNat n)

/-! ## 2. Decoding -/

/-- What the header of the next value announces. -/
inductive Kind where
  | byte
  | string
  | list
  deriving DecidableEq, Repr

/-- The length written in the `k` bytes after a long header.  A leading zero byte, or a
length that fits a short header, is not canonical. -/
def readSize (k : Nat) (input : Bytes) : Option (Nat × Bytes) :=
  let size := toNat (input.take k)
  if input.length < k ∨ input.head? = some 0 ∨ size < 56 then none
  else some (size, input.drop k)

/-- Cuts `n` content bytes off the input. -/
def takeContent (kind : Kind) (n : Nat) (input : Bytes) : Option (Kind × Bytes × Bytes) :=
  if input.length < n then none else some (kind, input.take n, input.drop n)

/-- Kind and content of the next value, and the input after it. -/
def split : Bytes → Option (Kind × Bytes × Bytes)
  | [] => none
  | b :: rest =>
    if b.toNat < 0x80 then some (.byte, [b], rest)
    else if b.toNat < 0xB8 then takeContent .string (b.toNat - 0x80) rest
    else if b.toNat < 0xC0 then
      (readSize (b.toNat - 0xB7) rest).bind fun (n, rest) => takeContent .string n rest
    else if b.toNat < 0xF8 then takeContent .list (b.toNat - 0xC0) rest
    else (readSize (b.toNat - 0xF7) rest).bind fun (n, rest) => takeContent .list n rest

/-- The elements of the single list the input must consist of. -/
def splitList (input : Bytes) : Option Bytes :=
  match split input with
  | some (.list, payload, []) => some payload
  | _ => none

/-- A byte string.  A lone byte below `0x80` under a header is not canonical. -/
def readBytes (input : Bytes) : Option (Bytes × Bytes) :=
  match split input with
  | some (.byte, s, rest) => some (s, rest)
  | some (.string, s, rest) => if isSingle s then none else some (s, rest)
  | _ => none

/-- An unsigned integer of any size: no leading zero byte. -/
def readBig (input : Bytes) : Option (Nat × Bytes) :=
  match readBytes input with
  | some (s, rest) => if s.head? = some 0 then none else some (toNat s, rest)
  | none => none

/-- An unsigned integer of at most `bits` bits. -/
def readUint (bits : Nat) (input : Bytes) : Option (Nat × Bytes) :=
  match readBig input with
  | some (n, rest) => if n < 2 ^ bits then some (n, rest) else none
  | none => none

/-- A string of exactly `n` bytes. -/
def readArray (n : Nat) (input : Bytes) : Option (Bytes × Bytes) :=
  match readBytes input with
  | some (s, rest) => if s.length = n then some (s, rest) else none
  | none => none

/-- Values of one kind up to the end of the input.  Each takes at least one byte, so the length of
the input is fuel enough. -/
def readMany {α : Type} (read : Bytes → Option (α × Bytes)) : Nat → Bytes → Option (List α)
  | _, [] => some []
  | 0, _ :: _ => none
  | fuel + 1, b :: input =>
    match read (b :: input) with
    | some (x, rest) => (readMany read fuel rest).map (x :: ·)
    | none => none

/-- A struct: a list of what `read` consumes. -/
def readStruct {α : Type} (read : Bytes → Option α) (input : Bytes) : Option (α × Bytes) :=
  match split input with
  | some (.list, payload, rest) => (read payload).map (·, rest)
  | _ => none

/-- A list of values of one kind. -/
def readList {α : Type} (read : Bytes → Option (α × Bytes)) (input : Bytes) :
    Option (List α × Bytes) :=
  match split input with
  | some (.list, payload, rest) => (readMany read payload.length payload).map (·, rest)
  | _ => none

/-! ## 3. What `split` cuts off is what was encoded -/

variable {p s x y : Bytes} {n : Nat}

theorem takeContent_append {kind : Kind} (rest : Bytes)
    (h : p.length = n) : takeContent kind n (p ++ rest) = some (kind, p, rest) := by
  subst h
  simp [takeContent]

theorem readSize_append (rest : Bytes) (h : 56 ≤ n) :
    readSize (ofNat n).length (ofNat n ++ rest) = some (n, rest) := by
  have hhead : (ofNat n ++ rest).head? ≠ some 0 := by
    have h0 := ofNat_head n
    have hpos : 0 < (ofNat n).length := ofNat_length_pos (by omega)
    cases hn : ofNat n with
    | nil => simp [hn] at hpos
    | cons b bs => rw [hn] at h0; simpa using h0
  have hcond : ¬((ofNat n ++ rest).length < (ofNat n).length ∨
      (ofNat n ++ rest).head? = some 0 ∨ n < 56) := by
    simp only [length_append, hhead, false_or]
    omega
  simp only [readSize, take_left, toNat_ofNat, drop_left]
  rw [if_neg hcond]

/-- Reading a header back, for either base. -/
theorem split_head {kind : Kind} {base : Nat} (rest : Bytes)
    (hbase : (kind = .string ∧ base = 0x80) ∨ (kind = .list ∧ base = 0xC0))
    (hp : p.length < 2 ^ 64) : split (head base p.length ++ p ++ rest) = some (kind, p, rest) := by
  have hlen : (ofNat p.length).length ≤ 8 := ofNat_length_le (by norm_num; omega)
  unfold head
  split
  · -- short: the length is in the first byte
    rename_i hshort
    have hb : (UInt8.ofNat (base + p.length)).toNat = base + p.length := by
      rw [UInt8.toNat_ofNat']; rcases hbase with ⟨-, rfl⟩ | ⟨-, rfl⟩ <;> omega
    rcases hbase with ⟨rfl, rfl⟩ | ⟨rfl, rfl⟩
    · simp only [cons_append, nil_append, split, hb]
      rw [if_neg (by omega), if_pos (by omega), Nat.add_sub_cancel_left,
        takeContent_append rest rfl]
    · simp only [cons_append, nil_append, split, hb]
      rw [if_neg (by omega), if_neg (by omega), if_neg (by omega), if_pos (by omega),
        Nat.add_sub_cancel_left, takeContent_append rest rfl]
  · -- long: the first byte counts the bytes of the length
    rename_i hlong
    have hpos : 0 < (ofNat p.length).length := ofNat_length_pos (by omega)
    have hb : (UInt8.ofNat (base + 55 + (ofNat p.length).length)).toNat =
        base + 55 + (ofNat p.length).length := by
      rw [UInt8.toNat_ofNat']; rcases hbase with ⟨-, rfl⟩ | ⟨-, rfl⟩ <;> omega
    have hsize := readSize_append (n := p.length) (p ++ rest) (by omega)
    rcases hbase with ⟨rfl, rfl⟩ | ⟨rfl, rfl⟩
    · simp only [cons_append, append_assoc, split, hb]
      rw [if_neg (by omega), if_neg (by omega), if_pos (by omega),
        show 128 + 55 + (ofNat p.length).length - 183 = (ofNat p.length).length by omega, hsize,
        bind_some, takeContent_append rest rfl]
    · simp only [cons_append, append_assoc, split, hb]
      rw [if_neg (by omega), if_neg (by omega), if_neg (by omega), if_neg (by omega),
        show 192 + 55 + (ofNat p.length).length - 247 = (ofNat p.length).length by omega, hsize,
        bind_some, takeContent_append rest rfl]

/-- A string is cut off as it was written. -/
theorem split_encodeString (s rest : Bytes) (hs : s.length < 2 ^ 64) :
    split (encodeString s ++ rest) = some (if isSingle s then .byte else .string, s, rest) := by
  unfold encodeString
  split
  next hsingle =>
    match s, hsingle with
    | [b], hb =>
      have hlt : b.toNat < 128 := by simpa [isSingle, UInt8.lt_iff_toNat_lt] using hb
      simp [split, hlt]
  · exact split_head rest (.inl ⟨rfl, rfl⟩) hs

/-- A list is cut off as it was written. -/
theorem split_encodeList (p rest : Bytes) (hp : p.length < 2 ^ 64) :
    split (encodeList p ++ rest) = some (.list, p, rest) :=
  split_head rest (.inr ⟨rfl, rfl⟩) hp

theorem splitList_encodeList (hp : p.length < 2 ^ 64) : splitList (encodeList p) = some p := by
  have h := split_encodeList p [] hp
  rw [append_nil] at h
  rw [splitList, h]

/-! ## 4. Injectivity -/

theorem length_le_encodeString (s : Bytes) : s.length ≤ (encodeString s).length := by
  unfold encodeString
  split
  · exact le_refl _
  · rw [length_append]; omega

theorem length_le_encodeList (p : Bytes) : p.length ≤ (encodeList p).length := by
  rw [encodeList, length_append]; omega

theorem encodeString_append_inj {t : Bytes} (hs : s.length < 2 ^ 64)
    (ht : t.length < 2 ^ 64) (h : encodeString s ++ x = encodeString t ++ y) : s = t ∧ x = y := by
  have h' := congrArg split h
  rw [split_encodeString s x hs, split_encodeString t y ht] at h'
  simp only [some.injEq, Prod.mk.injEq] at h'
  exact h'.2

theorem encodeList_append_inj {q : Bytes} (hp : p.length < 2 ^ 64)
    (hq : q.length < 2 ^ 64) (h : encodeList p ++ x = encodeList q ++ y) : p = q ∧ x = y := by
  have h' := congrArg split h
  rw [split_encodeList p x hp, split_encodeList q y hq] at h'
  simp only [some.injEq, Prod.mk.injEq] at h'
  exact h'.2

/-- A string and a list never start alike. -/
theorem encodeString_append_ne_encodeList (hs : s.length < 2 ^ 64)
    (hp : p.length < 2 ^ 64) : encodeString s ++ x ≠ encodeList p ++ y := by
  intro h
  have h' := congrArg split h
  rw [split_encodeString s x hs, split_encodeList p y hp] at h'
  simp only [some.injEq, Prod.mk.injEq] at h'
  have hkind := h'.1
  split at hkind <;> simp at hkind

/-- Every encoding has a first byte. -/
theorem Item.encode_ne_nil (i : Item) : i.encode ≠ [] := by
  have hhead (base n : Nat) : head base n ≠ [] := by unfold head; split <;> simp
  cases i with
  | list is => simp [Item.encode, encodeList, hhead]
  | str s =>
    simp only [Item.encode, encodeString]
    split
    · rename_i hs; rintro rfl; simp [isSingle] at hs
    · simp [hhead]

mutual
/-- An encoding is determined, and its end is found, whatever follows it. -/
theorem Item.encode_append_inj : ∀ (i j : Item) (x y : Bytes),
    i.encode.length < 2 ^ 64 → j.encode.length < 2 ^ 64 →
    i.encode ++ x = j.encode ++ y → i = j ∧ x = y
  | .str s, .str t, x, y, hi, hj, h => by
    simp only [Item.encode] at hi hj h
    have hs := length_le_encodeString s
    have ht := length_le_encodeString t
    obtain ⟨rfl, rfl⟩ := encodeString_append_inj (by omega) (by omega) h
    exact ⟨rfl, rfl⟩
  | .str s, .list js, x, y, hi, hj, h => by
    simp only [Item.encode] at hi hj h
    have hs := length_le_encodeString s
    have hp := length_le_encodeList (Item.encodeAll js)
    exact absurd h (encodeString_append_ne_encodeList (by omega) (by omega))
  | .list is, .str t, x, y, hi, hj, h => by
    simp only [Item.encode] at hi hj h
    have hp := length_le_encodeList (Item.encodeAll is)
    have ht := length_le_encodeString t
    exact absurd h.symm (encodeString_append_ne_encodeList (by omega) (by omega))
  | .list is, .list js, x, y, hi, hj, h => by
    simp only [Item.encode] at hi hj h
    have hp := length_le_encodeList (Item.encodeAll is)
    have hq := length_le_encodeList (Item.encodeAll js)
    obtain ⟨hall, rfl⟩ := encodeList_append_inj (by omega) (by omega) h
    rw [Item.encodeAll_inj is js (by omega) (by omega) hall]
    exact ⟨rfl, rfl⟩

theorem Item.encodeAll_inj : ∀ (is js : List Item),
    (Item.encodeAll is).length < 2 ^ 64 → (Item.encodeAll js).length < 2 ^ 64 →
    Item.encodeAll is = Item.encodeAll js → is = js
  | [], [], _, _, _ => rfl
  | [], j :: js, _, _, h => by
    simp only [Item.encodeAll] at h
    exact absurd (append_eq_nil_iff.mp h.symm).1 j.encode_ne_nil
  | i :: is, [], _, _, h => by
    simp only [Item.encodeAll] at h
    exact absurd (append_eq_nil_iff.mp h).1 i.encode_ne_nil
  | i :: is, j :: js, hi, hj, h => by
    simp only [Item.encodeAll, length_append] at hi hj h
    obtain ⟨hij, hrest⟩ := Item.encode_append_inj i j _ _ (by omega) (by omega) h
    rw [hij, Item.encodeAll_inj is js (by omega) (by omega) hrest]
end

/-- **Two trees with the same encoding are the same tree.** -/
theorem Item.encode_inj {i j : Item} (hi : i.encode.length < 2 ^ 64)
    (h : i.encode = j.encode) : i = j := by
  have hj : j.encode.length < 2 ^ 64 := h ▸ hi
  exact (Item.encode_append_inj i j [] [] hi hj (by rw [h])).1

theorem Item.nat_inj {m : Nat} : Item.nat m = Item.nat n ↔ m = n :=
  ⟨fun h => ofNat_inj (Item.str.inj h), fun h => h ▸ rfl⟩

/-! ## 5. Lists of values -/

theorem Item.length_le_encodeAll : ∀ is : List Item, is.length ≤ (Item.encodeAll is).length
  | [] => Nat.le_refl _
  | i :: is => by
    have hpos := length_pos_iff.mpr i.encode_ne_nil
    have ih := Item.length_le_encodeAll is
    rw [Item.encodeAll, length_append, length_cons]
    omega

theorem Item.isSingle_cons_encode (b : UInt8) (i : Item) : isSingle (b :: i.encode) = false := by
  obtain ⟨c, cs, hcons⟩ := exists_cons_of_ne_nil i.encode_ne_nil
  rw [hcons]
  rfl

/-- A list starts with a byte above 0x7f: a lower one would be a value of its own. -/
theorem Item.headD_list {is : List Item} (hlen : (Item.list is).encode.length < 2 ^ 64) :
    (Item.list is).encode ≠ [] ∧ 0x7f < (Item.list is).encode.headD 0 := by
  refine ⟨encode_ne_nil _, UInt8.not_le.mp fun hb => ?_⟩
  rw [Item.encode] at hlen hb
  have hsplit :=
    split_encodeList (Item.encodeAll is) [] (lt_of_le_of_lt (length_le_encodeList _) hlen)
  rw [append_nil] at hsplit
  cases hl : encodeList (Item.encodeAll is) with
  | nil =>
    rw [hl] at hsplit
    cases hsplit
  | cons b bs =>
    rw [hl] at hb hsplit
    have hbyte : b.toNat < 0x80 := Nat.lt_succ_of_le (UInt8.le_iff_toNat_le.mp hb)
    rw [split, if_pos hbyte] at hsplit
    cases hsplit

/-! ## 6. Reading back -/

variable {α β : Type} {i : Item} {is : List Item} {a : α} {b : β}

/-- `read` finds `a` where the item was written, whatever follows it. -/
def Reads (read : Bytes → Option (α × Bytes)) (i : Item) (a : α) : Prop :=
  i.encode.length < 2 ^ 64 → ∀ rest, read (i.encode ++ rest) = some (a, rest)

/-- `read` finds `a` in what consists of the items. -/
def ReadsAll (read : Bytes → Option α) (is : List Item) (a : α) : Prop :=
  (Item.encodeAll is).length < 2 ^ 64 → read (Item.encodeAll is) = some a

theorem reads_bytes (s : Bytes) : Reads readBytes (.str s) s := by
  intro hlen rest
  rw [Item.encode_str] at hlen ⊢
  rw [readBytes, split_encodeString s rest (lt_of_le_of_lt (length_le_encodeString s) hlen)]
  cases hsingle : isSingle s <;> simp [hsingle]

theorem reads_big (n : Nat) : Reads readBig (.nat n) n := by
  intro hlen rest
  rw [readBig, Item.nat, reads_bytes _ hlen]
  dsimp only
  rw [if_neg (ofNat_head n), toNat_ofNat]

theorem reads_uint (bits : Nat) (hn : n < 2 ^ bits) : Reads (readUint bits) (.nat n) n := by
  intro hlen rest
  rw [readUint, reads_big n hlen]
  exact if_pos hn

theorem reads_array (hs : s.length = n) : Reads (readArray n) (.str s) s := by
  intro hlen rest
  rw [readArray, reads_bytes s hlen]
  exact if_pos hs

variable {read : Bytes → Option (α × Bytes)}

theorem Reads.map (h : Reads read i a) (f : α → β) :
    Reads (fun input => (read input).map fun (a, rest) => (f a, rest)) i (f a) := by
  intro hlen rest
  dsimp only
  rw [h hlen, Option.map_some]

theorem ReadsAll.nil {read : Bytes → Option α} (h : read [] = some a) : ReadsAll read [] a := by
  intro _
  rwa [Item.encodeAll]

/-- One field, and the fields after it. -/
theorem ReadsAll.cons {next : α × Bytes → Option β} (h : Reads read i a)
    (hnext : ReadsAll (fun rest => next (a, rest)) is b) :
    ReadsAll (fun input => read input >>= next) (i :: is) b := by
  intro hlen
  rw [Item.encodeAll, List.length_append] at hlen
  rw [Item.encodeAll]
  dsimp only
  rw [h (by omega)]
  exact hnext (by omega)

theorem ReadsAll.bind {read : Bytes → Option α} {f : α → Option β} (h : ReadsAll read is a)
    (hf : f a = some b) :
    ReadsAll (fun input => read input >>= f) is b := by
  intro hlen
  dsimp only
  rw [h hlen]
  exact hf

/-- A struct is a list of nothing but its fields. -/
theorem ReadsAll.struct {read : Bytes → Option α} (h : ReadsAll read is a) :
    Reads (readStruct read) (.list is) a := by
  intro hlen rest
  rw [Item.encode] at hlen ⊢
  have hpayload := lt_of_le_of_lt (length_le_encodeList _) hlen
  rw [readStruct, split_encodeList _ rest hpayload]
  dsimp only
  rw [h hpayload, Option.map_some]

/-- A struct that is all of the input. -/
theorem ReadsAll.whole {read : Bytes → Option α} (h : ReadsAll read is a)
    (hlen : (Item.list is).encode.length < 2 ^ 64) :
    (splitList (Item.list is).encode >>= read) = some a := by
  rw [Item.encode] at hlen ⊢
  have hpayload := lt_of_le_of_lt (length_le_encodeList _) hlen
  rw [splitList_encodeList hpayload]
  exact h hpayload

/-- An optional field that is present. -/
theorem ReadsAll.present {read : Bytes → Option α} {absent : Option α}
    (h : ReadsAll read (i :: is) a) :
    ReadsAll (fun rest => if rest = [] then absent else read rest) (i :: is) a := by
  intro hlen
  have hne : Item.encodeAll (i :: is) ≠ [] := by
    rw [Item.encodeAll]
    exact List.append_ne_nil_of_left_ne_nil i.encode_ne_nil _
  dsimp only
  rw [if_neg hne]
  exact h hlen

/-- Values of one kind, from one value. -/
theorem readMany_encodeAll {item : α → Item} : ∀ (xs : List α) (fuel : Nat), xs.length ≤ fuel →
    (∀ x ∈ xs, Reads read (item x) x) → ReadsAll (readMany read fuel) (xs.map item) xs
  | [], _, _, _ => .nil (by rw [readMany])
  | x :: xs, fuel + 1, hfuel, hread => by
    intro hlen
    rw [List.map_cons, Item.encodeAll, List.length_append] at hlen
    have hone := hread x List.mem_cons_self (by omega) (Item.encodeAll (xs.map item))
    have hrest := readMany_encodeAll xs fuel (Nat.le_of_succ_le_succ hfuel)
      (fun y hy => hread y (List.mem_cons_of_mem _ hy)) (by omega)
    rw [List.map_cons, Item.encodeAll]
    cases hb : (item x).encode with
    | nil => exact absurd hb (item x).encode_ne_nil
    | cons b bs =>
      rw [hb] at hone
      rw [cons_append, readMany, ← cons_append, hone]
      dsimp only
      rw [hrest, map_some]

theorem reads_list {item : α → Item} {xs : List α} (h : ∀ x ∈ xs, Reads read (item x) x) :
    Reads (readList read) (.list (xs.map item)) xs := by
  have hmany : ReadsAll (fun payload => readMany read payload.length payload) (xs.map item) xs := by
    intro hlen
    have hfuel := Item.length_le_encodeAll (xs.map item)
    rw [length_map] at hfuel
    exact readMany_encodeAll xs _ hfuel h hlen
  exact hmany.struct

end ProbeChain.Rlp
