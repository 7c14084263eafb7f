import KdeConnectNx.MdnsMessages
import Mathlib.Data.List.Forall2
import Mathlib.Data.List.TakeWhile

/-!
# Writing the names of a packet of mDNS

A packet is filled from the front, in a buffer that still holds what was written before. A
table keeps the places of the last sixteen labels written; a name that goes on like one of
them ends with a reference there. Whether the name at that place ends where the new one does
is not looked at, and of a name that is being written the bytes behind it are read too.
-/

namespace KdeConnectNx.MdnsWriter

open DomainNames MdnsReader MdnsMessages

/-- `mdns_string_table_t`. -/
structure StringTable where
  offset : List ℕ := List.replicate 16 0
  count : ℕ := 0
  next : ℕ := 0
deriving DecidableEq

/-- The buffer, how far it is filled (`data`, without a value where the source has a null
pointer) and the table, which a query does without. -/
structure Packet where
  buffer : List UInt8
  data : Option ℕ
  stringTable : Option StringTable
deriving DecidableEq

/-- Bytes are stored at a place of the buffer; outside it there is no result. -/
def store (buffer : List UInt8) (offset : ℕ) (bytes : List UInt8) : Option (List UInt8) :=
  if offset + bytes.length ≤ buffer.length then
    some (buffer.take offset ++ (bytes ++ buffer.drop (offset + bytes.length)))
  else none

/-- Two bytes, the upper one first. -/
def word (value : ℕ) : List UInt8 := [UInt8.ofNat (value / 256), UInt8.ofNat value]

/-- `mdns_htons`, `mdns_htonl` and the copying of bytes: the packet goes on behind them. -/
def put (p : Packet) (offset : ℕ) (bytes : List UInt8) : Option Packet :=
  (store p.buffer offset bytes).map fun buffer =>
    { p with buffer := buffer, data := some (offset + bytes.length) }

/-- `mdns_string_table_add`. -/
def mdnsStringTableAdd (stringTable : Option StringTable) (offset : ℕ) : Option StringTable :=
  stringTable.map fun t =>
    { offset := t.offset.set t.next offset
      count := min (t.count + 1) 16
      next := if 16 ≤ t.next + 1 then 0 else t.next + 1 }

/-- The label a name begins with: `mdns_string_find` finds the dot behind it or none. -/
def firstLabel (str : List UInt8) : Label := str.takeWhile (· ≠ 46)

/-- The name behind its first label and the dot. -/
def behindFirst (str : List UInt8) : List UInt8 := str.drop ((firstLabel str).length + 1)

/-- Behind the first label a name is shorter. -/
theorem length_behindFirst_lt {str : List UInt8} (h : str ≠ []) :
    (behindFirst str).length < str.length := by
  have hpos := List.length_pos_iff.mpr h
  rw [behindFirst, List.length_drop]
  omega

/-- The label found is the one looked for. -/
def sameLabel (buffer : List UInt8) (substr : StringPair) (label : Label) : Option Bool :=
  if substr.length = 0 ∨ substr.length ≠ label.length then some false
  else (sliceOf buffer (substr.offset.getD 0) substr.length).map (· == label)

/-- The labels behind the first are the ones the name has. -/
def matchRemaining (buffer : List UInt8) (str : List UInt8) (cur : ℕ) : Option Bool :=
  if _h : str = [] then some true
  else
    match mdnsGetNextSubstring buffer buffer.length cur with
    | none => none
    | some substr =>
      match sameLabel buffer substr (firstLabel str) with
      | none => none
      | some false => some false
      | some true => matchRemaining buffer (behindFirst str) (substr.offset.getD 0 + substr.length)
termination_by str.length
decreasing_by exact length_behindFirst_lt _h

/-- `mdns_string_table_find`, over the places of the table. -/
def findFrom (buffer : List UInt8) (str : List UInt8) : List ℕ → Option (Option ℕ)
  | [] => some none
  | offset :: offsets =>
    if buffer.length ≤ offset then findFrom buffer str offsets
    else
      match mdnsGetNextSubstring buffer buffer.length offset with
      | none => none
      | some substr =>
        match sameLabel buffer substr (firstLabel str) with
        | none => none
        | some false => findFrom buffer str offsets
        | some true =>
          match matchRemaining buffer (behindFirst str) (substr.offset.getD 0 + substr.length) with
          | none => none
          | some true => some (some offset)
          | some false => findFrom buffer str offsets

/-- `mdns_string_table_find`. -/
def mdnsStringTableFind (stringTable : Option StringTable) (buffer : List UInt8)
    (str : List UInt8) :
    Option (Option ℕ) :=
  match stringTable with
  | none => some none
  | some t => findFrom buffer str (t.offset.take t.count)

/-- `mdns_string_make_ref`. -/
def mdnsStringMakeRef (p : Packet) (data refOffset : ℕ) : Option Packet :=
  if p.buffer.length - data < 2 then some { p with data := none }
  else put p data (word (0xC000 ||| refOffset % 65536))

/-- The loop of `mdns_string_make` over what is left of the name. -/
def stringMakeFrom (p : Packet) (data : ℕ) (name : List UInt8) : Option Packet :=
  if _h : name = [] then
    if p.buffer.length - data = 0 then some { p with data := none } else put p data [0]
  else
    match mdnsStringTableFind p.stringTable p.buffer name with
    | none => none
    | some (some refOffset) => mdnsStringMakeRef p data refOffset
    | some none =>
      if p.buffer.length - data ≤ (firstLabel name).length + 1 then some { p with data := none }
      else
        match put p data (UInt8.ofNat (firstLabel name).length :: firstLabel name) with
        | none => none
        | some p' =>
          stringMakeFrom { p' with stringTable := mdnsStringTableAdd p.stringTable data }
            (data + ((firstLabel name).length + 1)) (behindFirst name)
termination_by name.length
decreasing_by exact length_behindFirst_lt _h

/-- `mdns_string_make`: the last byte of the name is looked at, so that it needs one. -/
def mdnsStringMake (p : Packet) (data : ℕ) (name : List UInt8) : Option Packet :=
  match name.getLast? with
  | none => none
  | some last => stringMakeFrom p data (if last = 46 then name.dropLast else name)

/-! ## Looking a name up -/

/-- The labels with a dot between them. -/
def joined : List Label → List UInt8
  | [] => []
  | [label] => label
  | label :: next :: labels => label ++ 46 :: joined (next :: labels)

/-- A label that can be written. -/
structure Plain (label : Label) : Prop where
  ne_nil : label ≠ []
  no_dot : 46 ∉ label
  short : label.length < refStart

variable {buffer : List UInt8} {offset cur stop pos : ℕ} {label last : Label}
    {labels name : List Label}
  {substr : StringPair} {p : Packet} {m : Bytes}

/-- A label without dots is the first one of its text. -/
theorem firstLabel_joined (hdot : 46 ∉ label) : firstLabel (joined (label :: labels)) = label := by
  have hall : ∀ c ∈ label, decide (c ≠ 46) = true := by
    intro c hc
    rw [decide_eq_true_iff]
    rintro rfl
    exact hdot hc
  cases labels with
  | nil =>
    unfold firstLabel joined
    exact List.takeWhile_eq_self_iff.mpr hall
  | cons next labels =>
    unfold firstLabel joined
    rw [List.takeWhile_append_of_pos hall, List.takeWhile_cons_of_neg (by simp), List.append_nil]

/-- And the rest is what stands behind it. -/
theorem behindFirst_joined (hdot : 46 ∉ label) :
    behindFirst (joined (label :: labels)) = joined labels := by
  unfold behindFirst
  rw [firstLabel_joined hdot]
  cases labels with
  | nil => exact List.drop_eq_nil_of_le (Nat.le_succ _)
  | cons next labels =>
    rw [joined, ← List.drop_drop, List.drop_left]
    rfl

/-- A label that is not empty has a text. -/
theorem joined_ne_nil (hne : label ≠ []) : joined (label :: labels) ≠ [] := by
  cases labels with
  | nil => exact hne
  | cons next labels => exact List.append_ne_nil_of_left_ne_nil hne _

/-- The text of a name as records have it, with a dot at its end. -/
theorem dotted_eq (hne : labels ≠ []) : dotted labels = joined labels ++ [46] := by
  induction labels with
  | nil => exact absurd rfl hne
  | cons label labels ih =>
    cases labels with
    | nil => rw [dotted_cons, dotted_nil, joined]
    | cons next labels =>
      rw [dotted_cons, ih (List.cons_ne_nil _ _), joined, List.append_assoc, List.cons_append]

/-- What is found is looked for from the whole buffer. -/
theorem next_cases (buffer : List UInt8) (cur : ℕ) :
    ∃ substr, mdnsGetNextSubstring buffer buffer.length cur = some substr ∧
      NextSubstring (bytesOf buffer) maxRefs cur substr := by
  have h := mdnsGetNextSubstring_cases (Nat.le_refl buffer.length) cur
  rw [List.take_length] at h
  exact h

/-- A label that is found can be compared. Where labels are and it is the one looked for, it
is the first of them, and behind it the others are. -/
theorem sameLabel_eq (h : NextSubstring (bytesOf buffer) maxRefs cur substr) (label : Label) :
    ∃ same, sameLabel buffer substr label = some same ∧
      (same = true → ∀ labels, Begins (bytesOf buffer) maxRefs cur labels → labels = [] ∨
        ∃ rest, labels = label :: rest ∧
          Begins (bytesOf buffer) maxRefs (substr.offset.getD 0 + substr.length) rest) := by
  unfold sameLabel
  split
  · exact ⟨false, rfl, nofun⟩
  next hlengths =>
  rw [not_or, not_not] at hlengths
  obtain ⟨hzero, hsame⟩ := hlengths
  cases h with
  | failed ref hnone => exact absurd rfl hzero
  | @found hops place length found hleads hhops hlength htext =>
    have hne : length ≠ 0 := fun h => hzero (by rw [h]; rfl)
    have hstart : startOf hops place length = place + 1 := by simp [startOf, hne]
    rw [← List.take_length (l := buffer)] at hleads htext
    have hslice := sliceOf_found hleads hlength htext
    rw [List.take_length] at hleads htext
    dsimp only
    rw [Option.getD_some, hslice, Option.map_some, hstart]
    refine ⟨_, rfl, fun hequal labels hbegins => ?_⟩
    cases hbegins with
    | nil => exact .inl rfl
    | @cons _ place' hops' length' first rest hleads' hhops' hne' hlength' htext' hrest =>
      obtain ⟨rfl, rfl, rfl⟩ := hleads.unique hleads'
      have hfirst : first = found := htext'.unique htext (hlength'.trans hlength.symm)
      refine .inr ⟨rest, ?_, ?_⟩
      · rw [hfirst, beq_iff_eq.mp hequal]
      · rw [← hlength']
        exact hrest

/-- The comparison comes to an end, and what it finds goes on like the name. -/
theorem matchRemaining_eq (hplain : ∀ label ∈ name, Plain label) (cur : ℕ) :
    ∃ r, matchRemaining buffer (joined name) cur = some r ∧
      (r = true → ∀ labels, Begins (bytesOf buffer) maxRefs cur labels → Agree labels name) := by
  induction name generalizing cur with
  | nil =>
    unfold matchRemaining
    refine ⟨true, dif_pos rfl, fun _ labels _ => ?_⟩
    cases labels <;> exact trivial
  | cons first name ih =>
    have hfirst := hplain first List.mem_cons_self
    obtain ⟨substr, hget, hsubstr⟩ := next_cases buffer cur
    unfold matchRemaining
    rw [dif_neg (joined_ne_nil hfirst.ne_nil), hget]
    dsimp only
    rw [firstLabel_joined hfirst.no_dot, behindFirst_joined hfirst.no_dot]
    obtain ⟨same, hsame, hlabels⟩ := sameLabel_eq hsubstr first
    rw [hsame]
    cases same with
    | true =>
      obtain ⟨r, hr, hagree⟩ :=
        ih (fun other hother => hplain other (List.mem_cons_of_mem _ hother))
          (substr.offset.getD 0 + substr.length)
      refine ⟨r, hr, fun htrue labels hbegins => ?_⟩
      rcases hlabels rfl labels hbegins with rfl | ⟨rest, rfl, hrest⟩
      · exact trivial
      · exact ⟨rfl, hagree htrue rest hrest⟩
    | false => exact ⟨false, rfl, nofun⟩

/-- What the table gives is one of its places, and the labels there go on like the name. -/
theorem findFrom_eq (buffer : List UInt8) (hfirst : Plain label)
    (hplain : ∀ label ∈ name, Plain label) (offsets : List ℕ) :
    ∃ r, findFrom buffer (joined (label :: name)) offsets = some r ∧
      ∀ offset ∈ r, offset ∈ offsets ∧ ∀ labels, Begins (bytesOf buffer) maxRefs offset labels →
        Agree labels (label :: name) := by
  induction offsets with
  | nil => exact ⟨none, rfl, nofun⟩
  | cons offset offsets ih =>
    obtain ⟨r, hr, hfound⟩ := ih
    have hlater : ∀ other ∈ r, other ∈ offset :: offsets ∧
        ∀ labels, Begins (bytesOf buffer) maxRefs other labels → Agree labels (label :: name) :=
      fun other hother => ⟨List.mem_cons_of_mem _ (hfound other hother).1, (hfound other hother).2⟩
    unfold findFrom
    by_cases hout : buffer.length ≤ offset
    · rw [if_pos hout]
      exact ⟨r, hr, hlater⟩
    rw [if_neg hout]
    obtain ⟨substr, hget, hsubstr⟩ := next_cases buffer offset
    rw [hget]
    dsimp only
    rw [firstLabel_joined hfirst.no_dot, behindFirst_joined hfirst.no_dot]
    obtain ⟨same, hsame, hlabels⟩ := sameLabel_eq hsubstr label
    rw [hsame]
    cases same with
    | true =>
      obtain ⟨found, hmatch, hagree⟩ :=
        matchRemaining_eq hplain (substr.offset.getD 0 + substr.length)
      dsimp only
      rw [hmatch]
      cases found with
      | false => exact ⟨r, hr, hlater⟩
      | true =>
        refine ⟨some offset, rfl, ?_⟩
        rintro _ ⟨⟩
        refine ⟨List.mem_cons_self, fun labels hbegins => ?_⟩
        rcases hlabels rfl labels hbegins with rfl | ⟨rest, rfl, hrest⟩
        · exact trivial
        · exact ⟨rfl, hagree rfl rest hrest⟩
    | false => exact ⟨r, hr, hlater⟩

/-! ## Filling a packet -/

variable {m' : Bytes} {bytes buffer' : List UInt8} {p' : Packet}

/-- Storing leaves the length of the buffer. -/
theorem length_store (h : store buffer offset bytes = some buffer') :
    buffer'.length = buffer.length := by
  unfold store at h
  split at h
  · cases h
    simp only [List.length_append, List.length_take, List.length_drop]
    omega
  · cases h

/-- Where nothing is stored the buffer is as it was. -/
theorem getElem?_store (h : store buffer offset bytes = some buffer') (i : ℕ) :
    buffer'[i]? = if offset ≤ i ∧ i < offset + bytes.length then bytes[i - offset]?
      else buffer[i]? := by
  unfold store at h
  split at h
  · next hroom =>
    cases h
    have htake : (buffer.take offset).length = offset := by rw [List.length_take]; omega
    by_cases hfront : i < offset
    · rw [List.getElem?_append_left (by omega), List.getElem?_take_of_lt hfront, if_neg (by omega)]
    · rw [List.getElem?_append_right (by omega), htake]
      by_cases hbytes : i < offset + bytes.length
      · rw [List.getElem?_append_left (by omega), if_pos (by omega)]
      · rw [List.getElem?_append_right (by omega), List.getElem?_drop, if_neg (by omega)]
        congr 1
        omega
  · cases h

/-- What fits can be stored. -/
theorem store_inside (buffer : List UInt8) (offset : ℕ) (bytes : List UInt8)
    (h : offset + bytes.length ≤ buffer.length) :
    ∃ buffer', store buffer offset bytes = some buffer' := ⟨_, if_pos h⟩

/-- The packet is filled up to a place, and of what is filled these bytes stay. The others are
filled in later. -/
structure Filling (p : Packet) (m : Bytes) (pos : ℕ) : Prop where
  data : p.data = some pos
  room : pos ≤ p.buffer.length
  known : ∀ i byte, m i = some byte → i < pos ∧ p.buffer[i]? = some byte

/-- The bytes that are known when these are stored too. -/
def Bytes.stored (m : Bytes) (offset : ℕ) (bytes : List UInt8) : Bytes :=
  fun i => if offset ≤ i ∧ i < offset + bytes.length then bytes[i - offset]? else m i

/-- And stands there then. -/
theorem textAt_stored (m : Bytes) (offset : ℕ) (bytes : List UInt8) :
    TextAt (Bytes.stored m offset bytes) offset bytes := by
  intro i byte h
  have hi := (List.getElem?_eq_some_iff.mp h).1
  rw [Bytes.stored, if_pos (by omega), Nat.add_sub_cancel_left]
  exact h

/-- Nothing that is known is overwritten. -/
theorem within_stored (h : ∀ i byte, m i = some byte → i < offset ∨ offset + bytes.length ≤ i) :
    Within m (Bytes.stored m offset bytes) := by
  intro i byte hbyte
  have hi := h i byte hbyte
  rw [Bytes.stored, if_neg (by omega)]
  exact hbyte

/-- More is known from a place on, and in front of it the same. -/
structure Grown (m : Bytes) (pos : ℕ) (m' : Bytes) : Prop where
  within : Within m m'
  before : ∀ i < pos, m' i = m i

/-- Nothing was written. -/
theorem Grown.refl (m : Bytes) (pos : ℕ) : Grown m pos m := ⟨.refl m, fun _ _ => rfl⟩

/-- What was written first, then what was written behind it. -/
theorem Grown.trans {m'' : Bytes} (h : Grown m pos m') (h' : Grown m' stop m'') (hle : pos ≤ stop) :
    Grown m pos m'' :=
  ⟨h.within.trans h'.within, fun i hi => (h'.before i (by omega)).trans (h.before i hi)⟩

/-- Bytes are put behind what is filled, for good. -/
theorem put_eq (bytes : List UInt8) (h : Filling p m pos)
    (hroom : pos + bytes.length ≤ p.buffer.length) :
    ∃ p', put p pos bytes = some p' ∧ Filling p' (Bytes.stored m pos bytes) (pos + bytes.length) ∧
      Grown m pos (Bytes.stored m pos bytes) ∧ p'.buffer.length = p.buffer.length ∧
      p'.stringTable = p.stringTable := by
  obtain ⟨buffer', hstore⟩ := store_inside p.buffer pos bytes hroom
  have hlength := length_store hstore
  refine ⟨{ p with buffer := buffer', data := some (pos + bytes.length) }, ?_, ⟨rfl, ?_, ?_⟩, ?_,
    hlength, rfl⟩
  · rw [put, hstore, Option.map_some]
  · dsimp only
    omega
  · intro i byte hbyte
    dsimp only
    rw [getElem?_store hstore]
    rw [Bytes.stored] at hbyte
    split at hbyte
    · next hi =>
      rw [if_pos hi]
      exact ⟨hi.2, hbyte⟩
    · next hi =>
      rw [if_neg hi]
      obtain ⟨hlt, hsame⟩ := h.known i byte hbyte
      exact ⟨by omega, hsame⟩
  · refine ⟨within_stored fun i byte hbyte => .inl (h.known i byte hbyte).1, fun i hi => ?_⟩
    rw [Bytes.stored, if_neg (by omega)]

/-- Some of what is known is left to be filled in again. -/
theorem Filling.weaken (h : Filling p m' pos) (hwithin : Within m m') : Filling p m pos :=
  ⟨h.data, h.room, fun i byte hbyte => h.known i byte (hwithin i byte hbyte)⟩

/-! ## The table -/

/-- A name stands at a place, its first label without a reference. -/
def EntryAt (m : Bytes) (offset : ℕ) (labels : List Label) : Prop :=
  ∃ first rest place stop, labels = first ++ rest ∧ first ≠ [] ∧ Written m offset first place ∧
    NameAt m 1 place rest stop

/-- The table is filled in turn, and each of its places has a whole name, or the part of one
that is being written. -/
structure Table (m : Bytes) (last : Label) (parts : List (ℕ × List Label)) (t : StringTable) :
    Prop where
  cells : t.offset.length = 16
  turn : (t.count < 16 ∧ t.next = t.count) ∨ (t.count = 16 ∧ t.next < 16)
  entry : ∀ offset ∈ t.offset.take t.count,
    (∃ labels, EntryAt m offset labels ∧ Closed last labels) ∨ ∃ labels, (offset, labels) ∈ parts

/-- An entry stays while bytes are added. -/
theorem EntryAt.mono (hwithin : Within m m') (h : EntryAt m offset labels) :
    EntryAt m' offset labels := by
  obtain ⟨first, rest, place, stop, hlabels, hne, hwritten, hname⟩ := h
  exact ⟨first, rest, place, stop, hlabels, hne, hwritten.mono hwithin, hname.mono hwithin⟩

/-- A name stands at an entry. -/
theorem EntryAt.nameAt (h : EntryAt m offset labels) : ∃ stop, NameAt m 1 offset labels stop := by
  obtain ⟨first, rest, place, stop, rfl, hne, hwritten, hname⟩ := h
  exact ⟨stop, hwritten.nameAt hname⟩

/-- The first label of an entry is reached at its place. -/
theorem EntryAt.leads (h : EntryAt m offset labels) : ∃ length, Leads m 0 offset offset length := by
  obtain ⟨first, rest, place, stop, rfl, hne, hwritten, hname⟩ := h
  cases first with
  | nil => exact absurd rfl hne
  | cons label first => exact ⟨_, hwritten.leads⟩

variable {parts : List (ℕ × List Label)} {t : StringTable}

/-- The table stays while bytes are added. -/
theorem Table.mono (hwithin : Within m m') (h : Table m last parts t) : Table m' last parts t where
  cells := h.cells
  turn := h.turn
  entry offset hoffset := (h.entry offset hoffset).imp
    (fun ⟨labels, hentry, hclosed⟩ => ⟨labels, hentry.mono hwithin, hclosed⟩) id

/-- A place that is added takes the turn of the oldest one. -/
theorem mem_stringTableAdd
    (hturn : (t.count < 16 ∧ t.next = t.count) ∨ (t.count = 16 ∧ t.next < 16)) {other : ℕ}
    (hmem : other ∈ (t.offset.set t.next offset).take (min (t.count + 1) 16)) :
    other = offset ∨ other ∈ t.offset.take t.count := by
  obtain ⟨i, hi⟩ := List.mem_iff_getElem?.mp hmem
  rw [List.getElem?_take] at hi
  split at hi
  · next hlt =>
    rw [List.getElem?_set] at hi
    split at hi
    · split at hi
      · exact .inl (Option.some.inj hi).symm
      · cases hi
    · next hother =>
      refine .inr (List.mem_iff_getElem?.mpr ⟨i, ?_⟩)
      rw [List.getElem?_take_of_lt (by omega)]
      exact hi
  · cases hi

/-- A label that was written is added as the part of a name. -/
theorem Table.add (h : Table m last parts t) (hin : ∃ labels, (offset, labels) ∈ parts) :
    ∀ t', mdnsStringTableAdd (some t) offset = some t' → Table m last parts t' := by
  rintro _ ⟨⟩
  have hturn := h.turn
  refine ⟨by rw [List.length_set]; exact h.cells, ?_, ?_⟩
  · dsimp only
    split <;> omega
  · intro other hother
    rcases mem_stringTableAdd hturn hother with rfl | hold
    · exact .inr hin
    · exact h.entry other hold

/-- The two bytes of a reference. -/
theorem word_ref {refOffset : ℕ} (h : refOffset < 0x4000) :
    ∃ high low, word (0xC000 ||| refOffset % 65536) = [high, low] ∧ refStart ≤ high.toNat ∧
      target high low = refOffset := by
  have hor : 0xC000 ||| refOffset % 65536 = 0xC000 + refOffset := by
    rw [Nat.mod_eq_of_lt (by omega)]
    exact (Nat.two_pow_add_eq_or_of_lt (i := 14) h 3).symm
  refine ⟨_, _, rfl, ?_, ?_⟩
  · rw [hor, UInt8.toNat_ofNat']
    unfold refStart
    omega
  · unfold target refStart
    rw [hor, UInt8.toNat_ofNat', UInt8.toNat_ofNat']
    omega

/-- What holds of a part of a name while the rest of the name is written at `pos`. -/
structure PartOk (m : Bytes) (last : Label) (pos : ℕ) (name : List Label) (part : ℕ × List Label) :
    Prop where
  ne_nil : part.2 ≠ []
  written : Written m part.1 part.2 pos
  closed : Closed last (part.2 ++ name)
  apart : ∀ first second, name = first ++ second → second ≠ [] → ¬ Agree (part.2 ++ first) second

/-- Every name takes a byte. -/
theorem room_pos (labels : List Label) : 0 < room labels := Nat.succ_pos _

/-- Nothing but what is known is looked at in the buffer. -/
theorem Filling.within (h : Filling p m pos) : Within m (bytesOf p.buffer) :=
  fun i byte hbyte => (h.known i byte hbyte).2

/-- What the table gives for a name is a place where the same name stands. -/
theorem mdnsStringTableFind_eq (h : Filling p m pos)
    (htable : ∀ t, p.stringTable = some t → Table m last parts t)
    (hparts : ∀ part ∈ parts, PartOk m last pos (label :: name) part)
    (hplain : ∀ other ∈ label :: name, Plain other) (hclosed : Closed last (label :: name)) :
    ∃ r, mdnsStringTableFind p.stringTable p.buffer (joined (label :: name)) = some r ∧
      ∀ offset ∈ r, EntryAt m offset (label :: name) := by
  unfold mdnsStringTableFind
  cases ht : p.stringTable with
  | none => exact ⟨none, rfl, nofun⟩
  | some t =>
    obtain ⟨r, hr, hfound⟩ := findFrom_eq p.buffer (hplain label List.mem_cons_self)
      (fun other hother => hplain other (List.mem_cons_of_mem _ hother)) (t.offset.take t.count)
    refine ⟨r, hr, fun offset hoffset => ?_⟩
    obtain ⟨hmem, hagree⟩ := hfound offset hoffset
    rcases (htable t ht).entry offset hmem with ⟨labels, hentry, hclosed'⟩ | ⟨labels, hpart⟩
    · obtain ⟨stop, hname⟩ := hentry.nameAt
      have hbegins := (hname.more maxRefs (by decide)).begins.mono h.within
      rw [← hclosed'.eq_of_agree hclosed (hagree labels hbegins)]
      exact hentry
    · have hok := hparts _ hpart
      have hbegins := (hok.written.begins maxRefs).mono h.within
      have hdiffer := hok.apart [] (label :: name) rfl (List.cons_ne_nil _ _)
      rw [List.append_nil] at hdiffer
      exact absurd (hagree labels hbegins) hdiffer

/-- When the rest of a name stands behind its parts, the table has whole names only. -/
theorem Table.complete (h : Table m last parts t) (hwithin : Within m m')
    (hparts : ∀ part ∈ parts, PartOk m last pos name part) (hname : NameAt m' 1 pos name stop) :
    Table m' last [] t where
  cells := h.cells
  turn := h.turn
  entry offset hoffset := by
    rcases h.entry offset hoffset with ⟨labels, hentry, hclosed⟩ | ⟨labels, hpart⟩
    · exact .inl ⟨labels, hentry.mono hwithin, hclosed⟩
    · have hok := hparts _ hpart
      exact .inl ⟨labels ++ name,
        ⟨labels, name, pos, stop, rfl, hok.ne_nil, hok.written.mono hwithin, hname⟩, hok.closed⟩

/-- The parts of a name once its next label is written too. -/
def nextParts (pos : ℕ) (label : Label) (parts : List (ℕ × List Label)) : List (ℕ × List Label) :=
  (pos, [label]) :: parts.map fun part => (part.1, part.2 ++ [label])

/-- Behind a label the parts so far are longer by it, and a new one begins. -/
theorem nextParts_ok {next : ℕ} (hwithin : Within m m')
    (hparts : ∀ part ∈ parts, PartOk m last pos (label :: name) part)
    (hclosed : Closed last (label :: name)) (hapart : Apart (label :: name))
    (hwritten : Written m' pos [label] next) :
    ∀ part ∈ nextParts pos label parts, PartOk m' last next name part := by
  intro part hpart
  rcases List.mem_cons.mp hpart with rfl | hpart
  · refine ⟨List.cons_ne_nil _ _, hwritten, hclosed, fun first second heq hne => ?_⟩
    exact hapart [] (label :: first) second (by rw [heq]; rfl) (List.cons_ne_nil _ _) hne
  · obtain ⟨old, hold, rfl⟩ := List.mem_map.mp hpart
    have hok := hparts old hold
    refine ⟨List.append_ne_nil_of_left_ne_nil hok.ne_nil _,
      (hok.written.mono hwithin).append hwritten, ?_, fun first second heq hne => ?_⟩
    · rw [List.append_assoc]
      exact hok.closed
    · rw [List.append_assoc]
      exact hok.apart (label :: first) second (by rw [heq]; rfl) hne

/-- Each part is one label longer, and the label itself is a part too. -/
theorem Table.grow (h : Table m last parts t) (hwithin : Within m m') :
    Table m' last (nextParts pos label parts) t where
  cells := h.cells
  turn := h.turn
  entry offset hoffset := by
    rcases h.entry offset hoffset with ⟨labels, hentry, hclosed⟩ | ⟨labels, hpart⟩
    · exact .inl ⟨labels, hentry.mono hwithin, hclosed⟩
    · exact .inr ⟨labels ++ [label], List.mem_cons_of_mem _ (List.mem_map_of_mem hpart)⟩

/-- The name is written at its place, as a whole or with a reference to the same labels, and
all parts that were waiting are names now. -/
theorem stringMakeFrom_eq (hsmall : p.buffer.length ≤ 0x4000) (h : Filling p m pos)
    (htable : ∀ t, p.stringTable = some t → Table m last parts t)
    (hparts : ∀ part ∈ parts, PartOk m last pos name part)
    (hplain : ∀ label ∈ name, Plain label) (hclosed : name ≠ [] → Closed last name)
    (hapart : Apart name) (hroom : pos + room name ≤ p.buffer.length) :
    ∃ p' m' stop, stringMakeFrom p pos (joined name) = some p' ∧ Grown m pos m' ∧
      Filling p' m' stop ∧
      NameAt m' 1 pos name stop ∧ stop ≤ pos + room name ∧ p'.buffer.length = p.buffer.length ∧
      (∀ t, p'.stringTable = some t → Table m' last [] t) := by
  induction name generalizing p m pos parts with
  | nil =>
    obtain ⟨p', hput, hfilling, hgrown, hlength, hsame⟩ := put_eq [0] h hroom
    have hname : NameAt (Bytes.stored m pos [0]) 1 pos [] (pos + 1) :=
      nameAt_zero (textAt_stored m pos [0] 0 0 rfl)
    have hleft := room_pos []
    unfold stringMakeFrom
    rw [joined, dif_pos rfl, if_neg (by omega), hput]
    refine ⟨p', _, _, rfl, hgrown, hfilling, hname, Nat.le_refl _, hlength, fun t ht => ?_⟩
    exact (htable t (hsame ▸ ht)).complete hgrown.within hparts hname
  | cons label name ih =>
    have hlabel := hplain label List.mem_cons_self
    have hclosed := hclosed (List.cons_ne_nil _ _)
    have hleft := room_pos name
    rw [room_cons] at hroom
    obtain ⟨r, hfind, hentry⟩ := mdnsStringTableFind_eq h htable hparts hplain hclosed
    unfold stringMakeFrom
    rw [dif_neg (joined_ne_nil hlabel.ne_nil), hfind]
    cases r with
    | some refOffset =>
      obtain ⟨stop, hname⟩ := (hentry refOffset rfl).nameAt
      obtain ⟨length, hleads⟩ := (hentry refOffset rfl).leads
      have hinside : refOffset < 0x4000 := by
        obtain ⟨byte, hbyte⟩ := hleads.byte
        have hlt := (h.known _ _ hbyte).1
        have hle := h.room
        omega
      obtain ⟨high, low, hword, href, htarget⟩ := word_ref hinside
      obtain ⟨p', hput, hfilling, hgrown, hlength, hsame⟩ :=
        put_eq [high, low] h (by simp only [List.length_cons, List.length_nil]; omega)
      have htext := textAt_stored m pos [high, low]
      have hrefName : NameAt (Bytes.stored m pos [high, low]) 1 pos (label :: name) (pos + 2) := by
        rw [← htarget] at hname hleads
        exact nameAt_ref (Nat.le_refl 1) (htext 0 high rfl) (htext 1 low rfl) href
          (hleads.mono hgrown.within) (hname.mono hgrown.within)
      dsimp only
      rw [mdnsStringMakeRef, if_neg (by omega), hword, hput]
      refine ⟨p', _, _, rfl, hgrown, hfilling, hrefName, ?_, hlength, fun t ht => ?_⟩
      · rw [room_cons, List.length_cons, List.length_singleton]
        omega
      · exact (htable t (hsame ▸ ht)).complete hgrown.within hparts hrefName
    | none =>
      dsimp only
      rw [firstLabel_joined hlabel.no_dot, behindFirst_joined hlabel.no_dot, if_neg (by omega)]
      obtain ⟨p', hput, hfilling, hgrown, hlength, hsame⟩ :=
        put_eq (UInt8.ofNat label.length :: label) h (by rw [List.length_cons]; omega)
      rw [hput]
      dsimp only
      have hnext : pos + (label.length + 1) = pos + 1 + label.length := by omega
      have htext := textAt_stored m pos (UInt8.ofNat label.length :: label)
      have hwritten : Written (Bytes.stored m pos (UInt8.ofNat label.length :: label)) pos [label]
          (pos + (label.length + 1)) := by
        rw [hnext]
        refine .cons hlabel.ne_nil hlabel.short (htext 0 _ rfl) ?_ .nil
        intro i byte hbyte
        rw [Nat.add_assoc, Nat.add_comm 1 i]
        exact htext (i + 1) byte hbyte
      obtain ⟨p'', m', stop, hmake, hgrown', hfilling', hname, hstop, hlength', htable'⟩ :=
        ih (p := { p' with stringTable := mdnsStringTableAdd p.stringTable pos })
          (by dsimp only; omega)
          ⟨hfilling.data, hfilling.room, hfilling.known⟩
          (by
            intro t ht
            cases hold : p.stringTable with
            | none =>
              rw [hold] at ht
              cases ht
            | some old =>
              rw [hold] at ht
              exact ((htable old hold).grow hgrown.within).add ⟨[label], List.mem_cons_self⟩ t ht)
          (nextParts_ok hgrown.within hparts hclosed hapart hwritten)
          (fun other hother => hplain other (List.mem_cons_of_mem _ hother)) hclosed.tail
            hapart.tail
          (by dsimp only; rw [List.length_cons]; omega)
      refine ⟨p'', m', stop, hmake, hgrown.trans hgrown' (Nat.le_add_right _ _), hfilling', ?_, ?_,
        hlength'.trans hlength, htable'⟩
      · exact (hwritten.mono hgrown'.within).nameAt hname
      · rw [List.length_cons] at hstop
        rw [room_cons]
        omega

/-- A name that can be written: its last label, which other names end with too, is nowhere
else in it, and no part of it is repeated behind itself. -/
structure Proper (last : Label) (labels : List Label) : Prop where
  plain : ∀ label ∈ labels, Plain label
  closed : Closed last labels
  apart : Apart labels

/-- A name is written with the dot at its end left out. -/
theorem mdnsStringMake_eq (hsmall : p.buffer.length ≤ 0x4000) (h : Filling p m pos)
    (htable : ∀ t, p.stringTable = some t → Table m last [] t) (hproper : Proper last labels)
    (hroom : pos + room labels ≤ p.buffer.length) :
    ∃ p' m' stop, mdnsStringMake p pos (dotted labels) = some p' ∧ Grown m pos m' ∧
      Filling p' m' stop ∧
      NameAt m' 1 pos labels stop ∧ stop ≤ pos + room labels ∧ p'.buffer.length = p.buffer.length ∧
      (∀ t, p'.stringTable = some t → Table m' last [] t) := by
  unfold mdnsStringMake
  rw [dotted_eq hproper.closed.ne_nil, List.getLast?_append_of_ne_nil _ (List.cons_ne_nil _ _)]
  dsimp only [List.getLast?_singleton]
  rw [if_pos rfl, List.dropLast_concat]
  exact stringMakeFrom_eq hsmall h htable nofun hproper.plain (fun _ => hproper.closed)
    hproper.apart hroom

/-- Names one behind the other, each with its place. -/
def writeNames (p : Packet) : List (List UInt8) → Option (Packet × List ℕ)
  | [] => some (p, [])
  | name :: names =>
    match p.data with
    | none => some (p, [])
    | some data =>
      match mdnsStringMake p data name with
      | none => none
      | some p => (writeNames p names).map fun r => (r.1, data :: r.2)

/-- All names are written, each where the one before it ends. -/
theorem writeNames_eq {names : List (List Label)} (hsmall : p.buffer.length ≤ 0x4000)
    (h : Filling p m pos) (htable : ∀ t, p.stringTable = some t → Table m last [] t)
    (hproper : ∀ labels ∈ names, Proper last labels)
    (hroom : pos + (names.map room).sum ≤ p.buffer.length) :
    ∃ p' m' stop places, writeNames p (names.map dotted) = some (p', places) ∧ Within m m' ∧
      Filling p' m' stop ∧ p'.buffer.length = p.buffer.length ∧
      List.Forall₂ (fun place labels => ∃ behind, NameAt m' 1 place labels behind) places
        names := by
  induction names generalizing p m pos with
  | nil => exact ⟨p, m, pos, [], rfl, .refl m, h, rfl, .nil⟩
  | cons labels names ih =>
    rw [List.map_cons, List.sum_cons] at hroom
    obtain ⟨p', m', stop, hmake, hgrown, hfilling, hname, hstop, hlength, htable'⟩ :=
      mdnsStringMake_eq hsmall h htable (hproper labels List.mem_cons_self) (by omega)
    obtain ⟨p'', m'', stop', places, hnames, hwithin', hfilling', hlength', hplaces⟩ :=
      ih (by omega) hfilling htable'
        (fun other hother => hproper other (List.mem_cons_of_mem _ hother))
        (by omega)
    refine ⟨p'', m'', stop', pos :: places, ?_, hgrown.within.trans hwithin', hfilling',
      hlength'.trans hlength, .cons ⟨stop, hname.mono hwithin'⟩ hplaces⟩
    rw [List.map_cons, writeNames, h.data]
    dsimp only
    rw [hmake]
    dsimp only
    rw [hnames, Option.map_some]

/-- An empty table over an empty packet. -/
theorem table_empty (m : Bytes) (last : Label) : Table m last [] {} where
  cells := rfl
  turn := .inl ⟨by decide, rfl⟩
  entry _ h := nomatch h

/-- What is known of a packet is in it as it is sent. -/
theorem Filling.sent (h : Filling p m pos) : Within m (bytesOf (p.buffer.take pos)) := by
  intro i byte hbyte
  obtain ⟨hlt, hsame⟩ := h.known i byte hbyte
  exact bytesOf_take_eq.mpr ⟨hlt, hsame⟩

/-- Names that end alike are written into one packet with references to each other. Whatever
the buffer held before, each of them is read back at its place. -/
theorem written_names_read {storage : List UInt8} {start : ℕ} {names : List (List Label)}
    (hsmall : storage.length ≤ 0x4000) (hproper : ∀ labels ∈ names, Proper last labels)
    (hroom : start + (names.map room).sum ≤ storage.length) (capacity : ℕ) :
    ∃ p places size,
      writeNames { buffer := storage, data := some start, stringTable := some {} }
        (names.map dotted) =
        some (p, places) ∧
      p.data = some size ∧ size ≤ p.buffer.length ∧ p.buffer.length = storage.length ∧
      List.Forall₂ (fun place labels => labels.length ≤ MDNS_MAX_SUBSTRINGS →
        ∃ stop, mdnsStringExtract p.buffer size place capacity =
          some (some ((dotted labels).take capacity, stop))) places names := by
  have hempty : Filling { buffer := storage, data := some start, stringTable := some {} }
      (fun _ => none) start := ⟨rfl, by dsimp only; omega, nofun⟩
  obtain ⟨p, m, size, places, hwrite, -, hfilling, hlength, hplaces⟩ := writeNames_eq hsmall hempty
    (by rintro _ ⟨⟩; exact table_empty _ last) hproper hroom
  refine ⟨p, places, size, hwrite, hfilling.data, hfilling.room, hlength,
    List.Forall₂.imp ?_ hplaces⟩
  rintro place labels ⟨stop, hname⟩ hfew
  obtain ⟨result, hresult, hiff⟩ := mdnsStringExtract_eq hfilling.room place capacity
  refine ⟨stop, ?_⟩
  rw [hresult, (hiff _ stop).mpr
    ⟨labels, hfew, (hname.more maxRefs (by decide)).mono hfilling.sent, rfl⟩]

/-- `a.b` and `c.b`. -/
theorem written_names_read_two : ∃ p places size,
    writeNames { buffer := List.replicate 64 0, data := some 12, stringTable := some {} }
        ([[[97], [98]], [[99], [98]]].map dotted) = some (p, places) ∧
      p.data = some size ∧ size ≤ p.buffer.length ∧ p.buffer.length =
        (List.replicate 64 (0 : UInt8)).length ∧
      List.Forall₂ (fun place labels => labels.length ≤ MDNS_MAX_SUBSTRINGS →
        ∃ stop, mdnsStringExtract p.buffer size place 16 =
          some (some ((dotted labels).take 16, stop))) places [[[97], [98]], [[99], [98]]] := by
  have hplain : ∀ c : UInt8, c ≠ 46 → Plain [c] := fun c hc =>
    ⟨List.cons_ne_nil _ _, fun h => hc (List.mem_singleton.mp h).symm, (by decide : 1 < refStart)⟩
  have hproper : ∀ c : UInt8, c ≠ 46 → c ≠ 98 → Proper [98] [[c], [98]] := by
    intro c hdot hlast
    refine ⟨fun label hmem => ?_, ⟨[[c]], rfl, by simpa using Ne.symm hlast⟩,
      apart_of_nodup (by simpa using hlast)⟩
    rcases List.mem_cons.mp hmem with rfl | hmem
    · exact hplain c hdot
    · obtain rfl := List.mem_singleton.mp hmem
      exact hplain 98 (by decide)
  have hall : ∀ labels ∈ ([[[97], [98]], [[99], [98]]] : List (List Label)),
      Proper [98] labels := by
    intro labels hmem
    rcases List.mem_cons.mp hmem with rfl | hmem
    · exact hproper 97 (by decide) (by decide)
    · obtain rfl := List.mem_singleton.mp hmem
      exact hproper 99 (by decide) (by decide)
  exact written_names_read (by decide) hall (by decide) 16

/-! ## Nothing outside the buffer is read or written -/

/-- What is filled is no more than the buffer, whose length stays. -/
structure Kept (length : ℕ) (p : Packet) : Prop where
  length_eq : p.buffer.length = length
  data_le : ∀ data, p.data = some data → data ≤ length

/-- Bytes with room for them stay within the storage. -/
theorem put_kept {length : ℕ} (p : Packet) (pos : ℕ) (bytes : List UInt8)
    (h : p.buffer.length = length) (hroom : pos + bytes.length ≤ length) :
    ∃ p', put p pos bytes = some p' ∧ Kept length p' ∧ p'.data = some (pos + bytes.length) := by
  obtain ⟨buffer', hstore⟩ := store_inside p.buffer pos bytes (h.symm ▸ hroom)
  refine ⟨{ p with buffer := buffer', data := some (pos + bytes.length) }, ?_,
    ⟨(length_store hstore).trans h, ?_⟩, rfl⟩
  · rw [put, hstore, Option.map_some]
  · rintro _ ⟨⟩
    exact hroom

/-- A packet that is given up stays within it. -/
theorem kept_null {length : ℕ} (h : p.buffer.length = length) :
    Kept length { p with data := none } :=
  ⟨h, nofun⟩

/-- Comparing reads nothing outside of the buffer. -/
theorem matchRemaining_total (buffer str : List UInt8) (cur : ℕ) :
    ∃ r, matchRemaining buffer str cur = some r := by
  fun_induction matchRemaining buffer str cur with
  | case1 => exact ⟨true, rfl⟩
  | case2 str cur hne hget =>
    obtain ⟨substr, hsome, -⟩ := next_cases buffer cur
    rw [hget] at hsome
    cases hsome
  | case3 str cur hne substr hget hnone =>
    obtain ⟨substr', hget', hsubstr⟩ := next_cases buffer cur
    obtain rfl := Option.some.inj (hget.symm.trans hget')
    obtain ⟨same, hsame, -⟩ := sameLabel_eq hsubstr (firstLabel str)
    rw [hnone] at hsame
    cases hsame
  | case4 str cur hne substr hget hsame => exact ⟨false, rfl⟩
  | case5 str cur hne substr hget hsame ih => exact ih

/-- Nor does looking through the entries. -/
theorem findFrom_total (buffer str : List UInt8) (offsets : List ℕ) :
    ∃ r, findFrom buffer str offsets = some r := by
  induction offsets with
  | nil => exact ⟨none, rfl⟩
  | cons offset offsets ih =>
    unfold findFrom
    split
    · exact ih
    obtain ⟨substr, hget, hsubstr⟩ := next_cases buffer offset
    obtain ⟨same, hsame, -⟩ := sameLabel_eq hsubstr (firstLabel str)
    rw [hget]
    dsimp only
    rw [hsame]
    cases same with
    | false => exact ih
    | true =>
      obtain ⟨found, hmatch⟩ :=
        matchRemaining_total buffer (behindFirst str) (substr.offset.getD 0 + substr.length)
      dsimp only
      rw [hmatch]
      cases found with
      | true => exact ⟨some offset, rfl⟩
      | false => exact ih

/-- Nor through the whole table. -/
theorem stringTableFind_total (stringTable : Option StringTable) (buffer str : List UInt8) :
    ∃ r, mdnsStringTableFind stringTable buffer str = some r := by
  cases stringTable with
  | none => exact ⟨none, rfl⟩
  | some t => exact findFrom_total buffer str _

/-- A name stays within the storage, with room for it or without. -/
theorem stringMakeFrom_kept {length data : ℕ} {str : List UInt8} (h : p.buffer.length = length)
    (hdata : data ≤ length) : ∃ p', stringMakeFrom p data str = some p' ∧ Kept length p' := by
  fun_induction stringMakeFrom p data str with
  | case1 p data hfull => exact ⟨_, rfl, kept_null h⟩
  | case2 p data hroom =>
    obtain ⟨p', hput, hkept, -⟩ := put_kept p data [0] h
      (by rw [List.length_singleton]; omega)
    exact ⟨p', hput, hkept⟩
  | case3 p data str hne hfind =>
    obtain ⟨r, hsome⟩ := stringTableFind_total p.stringTable p.buffer str
    rw [hfind] at hsome
    cases hsome
  | case4 p data str hne refOffset hfind =>
    unfold mdnsStringMakeRef
    split
    · exact ⟨_, rfl, kept_null h⟩
    · obtain ⟨p', hput, hkept, -⟩ := put_kept p data
        (word (0xC000 ||| refOffset % 65536)) h
          (by rw [word, List.length_cons, List.length_singleton]; omega)
      exact ⟨p', hput, hkept⟩
  | case5 p data str hne hfind hfull => exact ⟨_, rfl, kept_null h⟩
  | case6 p data str hne hfind hroom hput =>
    obtain ⟨p', hsome, -⟩ := put_kept p data
      (UInt8.ofNat (firstLabel str).length :: firstLabel str) h (by rw [List.length_cons]; omega)
    rw [hput] at hsome
    cases hsome
  | case7 p data str hne hfind hroom p' hput ih =>
    obtain ⟨p'', hsome, hkept, -⟩ := put_kept p data
      (UInt8.ofNat (firstLabel str).length :: firstLabel str) h (by rw [List.length_cons]; omega)
    obtain rfl : p' = p'' := Option.some.inj (hput.symm.trans hsome)
    exact ih hkept.length_eq (by omega)

/-- A name is written or not, and nothing outside the buffer is touched. -/
theorem mdnsStringMake_kept {length data : ℕ} {str : List UInt8} (h : p.buffer.length = length)
    (hdata : data ≤ length) (hne : str ≠ []) :
    ∃ p', mdnsStringMake p data str = some p' ∧ Kept length p' := by
  unfold mdnsStringMake
  rw [List.getLast?_eq_some_getLast hne]
  exact stringMakeFrom_kept h hdata

end KdeConnectNx.MdnsWriter
