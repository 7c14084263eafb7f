import KdeConnectNx.DomainNames

/-!
# Reading a packet of mDNS

The storage is all of the receive buffer, with what earlier packets have left behind the
packet's size. A byte outside the storage is not there to be read. The names are read byte
by byte, through references, until their end; a reference cannot leave the packet, and
after seventeen references in a row or sixty-five labels the reader gives up.
-/

namespace KdeConnectNx.MdnsReader

open DomainNames

def MDNS_MAX_SUBSTRINGS : ℕ := 64

/-- The most references in a row. -/
def maxRefs : ℕ := 16

/-- `mdns_ntohs`. -/
def mdnsNtohs (buffer : List UInt8) (offset : ℕ) : Option ℕ :=
  match buffer[offset]?, buffer[offset + 1]? with
  | some high, some low => some (high.toNat * 256 + low.toNat)
  | _, _ => none

/-- `mdns_ntohl`. -/
def mdnsNtohl (buffer : List UInt8) (offset : ℕ) : Option ℕ :=
  match mdnsNtohs buffer offset, mdnsNtohs buffer (offset + 2) with
  | some high, some low => some (high * 65536 + low)
  | _, _ => none

/-- The bytes of a part of the storage, all of which have to be there. -/
def sliceOf (buffer : List UInt8) (start n : ℕ) : Option (List UInt8) :=
  if start + n ≤ buffer.length then some ((buffer.drop start).take n) else none

/-- `mdns_is_string_ref`. -/
def mdnsIsStringRef (val : UInt8) : Bool := 0xC0 == val &&& 0xC0

/-- `mdns_string_pair_t`, without an offset for `MDNS_INVALID_POS`. -/
structure StringPair where
  offset : Option ℕ := none
  length : ℕ := 0
  ref : Bool := false
deriving DecidableEq

/-- The loop over the references, and the label where they end. -/
def followRefs (buffer : List UInt8) (size : ℕ) (left offset : ℕ) (ref : Bool) :
    Option StringPair :=
  match buffer[offset]? with
  | none => none
  | some byte =>
    if mdnsIsStringRef byte then
      if size < offset + 2 then some { ref := ref }
      else
        match mdnsNtohs buffer offset with
        | none => none
        | some word =>
          if size ≤ word &&& 0x3fff then some { ref := ref }
          else
            match left with
            | 0 => some { ref := true }
            | left + 1 => followRefs buffer size left (word &&& 0x3fff) true
    else if size < offset + 1 + byte.toNat then some { ref := ref }
    else some { offset := some (offset + 1), length := byte.toNat, ref := ref }

/-- `mdns_get_next_substring`. -/
def mdnsGetNextSubstring (buffer : List UInt8) (size offset : ℕ) : Option StringPair :=
  if size ≤ offset then some {}
  else if buffer[offset]? = some 0 then some { offset := some offset }
  else followRefs buffer size maxRefs offset false

/-- The loop of `mdns_string_skip`, with the rounds that are left. -/
def skipFrom (buffer : List UInt8) (size : ℕ) (left cur : ℕ) : Option (Option ℕ) :=
  match mdnsGetNextSubstring buffer size cur with
  | none => none
  | some substr =>
    match substr.offset, left with
    | none, _ => some none
    | some _, 0 => some none
    | some start, left + 1 =>
      if substr.ref then some (some (cur + 2))
      else if substr.length = 0 then some (some (start + substr.length + 1))
      else skipFrom buffer size left (start + substr.length)

/-- `mdns_string_skip`: the offset behind the name, or none when it fails and leaves the
offset as it was. -/
def mdnsStringSkip (buffer : List UInt8) (size offset : ℕ) : Option (Option ℕ) :=
  skipFrom buffer size (MDNS_MAX_SUBSTRINGS + 1) offset

/-- A label is copied as far as there is room, then a dot. -/
def copyLabel (buffer : List UInt8) (capacity : ℕ) (str : List UInt8) (start length : ℕ) :
    Option (List UInt8) :=
  if length = 0 then some str
  else
    match sliceOf buffer start (min length (capacity - str.length)) with
    | none => none
    | some copied =>
      some (if (str ++ copied).length < capacity then str ++ copied ++ [46] else str ++ copied)

/-- The loop of `mdns_string_extract`, with the rounds that are left. -/
def extractFrom (buffer : List UInt8) (size capacity : ℕ) (left cur : ℕ) (endPos : Option ℕ)
    (str : List UInt8) : Option (Option (List UInt8 × ℕ)) :=
  match mdnsGetNextSubstring buffer size cur with
  | none => none
  | some substr =>
    match substr.offset, left with
    | none, _ => some none
    | some _, 0 => some none
    | some start, left + 1 =>
      let endPos := if substr.ref && endPos.isNone then some (cur + 2) else endPos
      match copyLabel buffer capacity str start substr.length with
      | none => none
      | some str =>
        let cur := start + substr.length
        if substr.length = 0 then some (some (str, endPos.getD (cur + 1)))
        else extractFrom buffer size capacity left cur endPos str

/-- `mdns_string_extract`: the text and the offset behind the name, or none when it fails:
then the text is empty and the offset as it was. -/
def mdnsStringExtract (buffer : List UInt8) (size offset capacity : ℕ) :
    Option (Option (List UInt8 × ℕ)) :=
  extractFrom buffer size capacity (MDNS_MAX_SUBSTRINGS + 1) offset none []

/-! ## One label -/

variable {buffer : List UInt8} {size capacity offset place hops left cur stop : ℕ} {length : UInt8}

theorem mdnsIsStringRef_iff (val : UInt8) : mdnsIsStringRef val = true ↔ refStart ≤ val.toNat := by
  have hall : ∀ n : Fin 256, (0xC0 == n.val &&& 0xC0) = decide (192 ≤ n.val) := by decide +kernel
  have hval := hall ⟨val.toNat, val.toNat_lt⟩
  have hword : mdnsIsStringRef val = (0xC0 == val.toNat &&& 0xC0) := by
    unfold mdnsIsStringRef
    rw [Bool.eq_iff_iff, beq_iff_eq, beq_iff_eq, ← UInt8.toNat_inj, UInt8.toNat_and]
    rfl
  rw [hword, hval, decide_eq_true_iff]
  rfl

theorem mdnsNtohs_eq {high low : UInt8} (hhigh : buffer[offset]? = some high)
    (hlow : buffer[offset + 1]? = some low) :
    mdnsNtohs buffer offset = some (high.toNat * 256 + low.toNat) := by
  simp only [mdnsNtohs, hhigh, hlow]

/-- The lower fourteen bits are the place a reference refers to. -/
theorem target_eq {high low : UInt8} (href : refStart ≤ high.toNat) :
    (high.toNat * 256 + low.toNat) &&& 0x3fff = target high low := by
  have hmask : (high.toNat * 256 + low.toNat) &&& 0x3fff =
      (high.toNat * 256 + low.toNat) % 2 ^ 14 :=
    Nat.and_two_pow_sub_one_eq_mod _ 14
  have hhigh := high.toNat_lt
  have hlow := low.toNat_lt
  rw [hmask]
  unfold target refStart at *
  omega

theorem bytesOf_take_eq {i : ℕ} {byte : UInt8} :
    bytesOf (buffer.take size) i = some byte ↔ i < size ∧ buffer[i]? = some byte := by
  rw [bytesOf, List.getElem?_take]
  split
  · next hlt => exact ⟨fun h => ⟨hlt, h⟩, fun h => h.2⟩
  · next hge => exact ⟨fun h => absurd h (Option.some_ne_none byte).symm, fun h => absurd h.1 hge⟩

/-- Where a label's text begins: behind its length, but for a zero that is no reference's target. -/
def startOf (hops place : ℕ) (length : UInt8) : ℕ :=
  if hops = 0 ∧ length = 0 then place else place + 1

/-- What is found at a place of a packet. -/
inductive NextSubstring (packet : Bytes) (limit offset : ℕ) : StringPair → Prop
  | found {hops place : ℕ} {length : UInt8} {label : Label}
    (hleads : Leads packet hops offset place length)
      (hhops : hops ≤ limit) (hlength : label.length = length.toNat)
      (htext : TextAt packet (place + 1) label) :
      NextSubstring packet limit offset
        { offset := some (startOf hops place length), length := length.toNat,
          ref := decide (hops ≠ 0) }
  | failed (ref : Bool) (hnone : ¬ Reaches packet limit offset) :
      NextSubstring packet limit offset { ref := ref }

theorem lt_size {i : ℕ} {byte : UInt8} (h : bytesOf (buffer.take size) i = some byte) : i < size :=
  (bytesOf_take_eq.mp h).1

theorem textAt_slice {start n : ℕ} (h : start + n ≤ size) :
    TextAt (bytesOf (buffer.take size)) start ((buffer.drop start).take n) := by
  intro i byte hbyte
  rw [List.getElem?_take] at hbyte
  split at hbyte
  · rw [List.getElem?_drop] at hbyte
    exact bytesOf_take_eq.mpr ⟨by omega, hbyte⟩
  · cases hbyte

theorem textAt_inside {start : ℕ} {text : List UInt8}
    (h : TextAt (bytesOf (buffer.take size)) start text)
    (hne : text ≠ []) : start + text.length ≤ size := by
  have hpos := List.length_pos_iff.mpr hne
  have hlast := lt_size (h (text.length - 1) _ (List.getElem?_eq_getElem (by omega)))
  omega

theorem slice_of_textAt {start : ℕ} {text : List UInt8}
    (h : TextAt (bytesOf (buffer.take size)) start text) :
    (buffer.drop start).take text.length = text := by
  refine List.ext_getElem? fun i => ?_
  rw [List.getElem?_take]
  split
  · next hi =>
    rw [List.getElem?_drop, List.getElem?_eq_getElem hi]
    exact (bytesOf_take_eq.mp (h i _ (List.getElem?_eq_getElem hi))).2
  · next hi => exact (List.getElem?_eq_none_iff.mpr (Nat.not_lt.mp hi)).symm

/-- The text that stands at a place of the packet is read there, and so is its beginning. -/
theorem sliceOf_of_textAt {start n : ℕ} {text : List UInt8}
    (h : TextAt (bytesOf (buffer.take size)) start text) (hne : text ≠ []) (hn : n ≤ text.length) :
    sliceOf buffer start n = some (text.take n) := by
  have hpos := List.length_pos_iff.mpr hne
  have hslice := slice_of_textAt h
  have hinside := congrArg List.length hslice
  rw [List.length_take, List.length_drop] at hinside
  rw [sliceOf, if_pos (by omega), ← hslice, List.take_take, Nat.min_eq_left hn]

/-- A label's text lies inside exactly when there is room for it. -/
theorem room_iff (hsize : size ≤ buffer.length)
    (hleads : Leads (bytesOf (buffer.take size)) hops offset place length) :
    place + 1 + length.toNat ≤ size ↔ ∃ label : Label, label.length = length.toNat ∧
      TextAt (bytesOf (buffer.take size)) (place + 1) label := by
  constructor
  · intro hroom
    refine ⟨(buffer.drop (place + 1)).take length.toNat, ?_, textAt_slice hroom⟩
    rw [List.length_take, List.length_drop]
    omega
  · rintro ⟨label, hlength, htext⟩
    have hplace := lt_size hleads.label_byte
    by_cases hne : label = []
    · subst hne
      rw [← hlength, List.length_nil]
      omega
    · rw [← hlength]
      exact textAt_inside htext hne

/-- A label that is found can be read. -/
theorem sliceOf_found {label : Label}
    (hleads : Leads (bytesOf (buffer.take size)) hops offset place length)
    (hlength : label.length = length.toNat)
    (htext : TextAt (bytesOf (buffer.take size)) (place + 1) label) :
    sliceOf buffer (startOf hops place length) length.toNat = some label := by
  by_cases hne : label = []
  · subst hne
    obtain ⟨hplace, -⟩ := List.getElem?_eq_some_iff.mp (bytesOf_take_eq.mp hleads.label_byte).2
    have hstart : startOf hops place length ≤ place + 1 := by
      unfold startOf
      split <;> omega
    rw [sliceOf, ← hlength, List.length_nil, if_pos (by omega), List.take_zero]
  · have hstart : startOf hops place length = place + 1 := by
      refine if_neg ?_
      rintro ⟨-, rfl⟩
      exact hne (List.length_eq_zero_iff.mp hlength)
    rw [hstart, ← hlength, sliceOf_of_textAt htext hne (Nat.le_refl _), List.take_length]

theorem followRefs_of_leads {ref : Bool}
    (h : Leads (bytesOf (buffer.take size)) hops offset place length) (hhops : hops ≤ left) :
    followRefs buffer size left offset ref =
      if size < place + 1 + length.toNat then some { ref := ref || decide (hops ≠ 0) }
      else some
        { offset := some (place + 1), length := length.toNat,
          ref := ref || decide (hops ≠ 0) } := by
  induction h generalizing left ref with
  | @here offset length hbyte hlabel =>
    have hnot : mdnsIsStringRef length = false := by
      rw [Bool.eq_false_iff, ne_eq, mdnsIsStringRef_iff]
      omega
    unfold followRefs
    rw [(bytesOf_take_eq.mp hbyte).2]
    simp only [hnot, Bool.false_eq_true, if_false, ne_eq, not_true_eq_false, decide_false,
      Bool.or_false]
  | @ref offset place hops high low length hhigh hlow href hrest ih =>
    obtain ⟨left, rfl⟩ : ∃ rest, left = rest + 1 := ⟨left - 1, by omega⟩
    have hinside := lt_size hlow
    obtain ⟨byte, hbyte⟩ := hrest.byte
    have htarget := lt_size hbyte
    unfold followRefs
    rw [(bytesOf_take_eq.mp hhigh).2]
    simp only [(mdnsIsStringRef_iff high).mpr href, if_true,
      mdnsNtohs_eq (bytesOf_take_eq.mp hhigh).2 (bytesOf_take_eq.mp hlow).2, target_eq href]
    rw [if_neg (by omega), if_neg (by omega), ih (by omega)]
    simp

/-- Where no label is reached the loop fails, and it reads nothing outside the storage. -/
theorem followRefs_of_not_leads (ref : Bool) (hsize : size ≤ buffer.length)
    (hoffset : offset < size)
    (h : ∀ hops place length, Leads (bytesOf (buffer.take size)) hops offset place length →
        left < hops) :
    ∃ ref', followRefs buffer size left offset ref = some { ref := ref' } := by
  have hlabel : ∀ {offset : ℕ} {byte : UInt8}, offset < size → buffer[offset]? = some byte →
      ¬ mdnsIsStringRef byte = true → Leads (bytesOf (buffer.take size)) 0 offset offset byte := by
    intro offset byte hoffset hbyte href
    rw [mdnsIsStringRef_iff] at href
    exact .here (bytesOf_take_eq.mpr ⟨hoffset, hbyte⟩) (by omega)
  have hword : ∀ {offset : ℕ} {high : UInt8}, ¬ size < offset + 2 → buffer[offset]? = some high →
      ∃ low, buffer[offset + 1]? = some low ∧
        mdnsNtohs buffer offset = some (high.toNat * 256 + low.toNat) := by
    intro offset high hlong hhigh
    have hlow : buffer[offset + 1]? = some buffer[offset + 1] := List.getElem?_eq_getElem (by omega)
    exact ⟨_, hlow, mdnsNtohs_eq hhigh hlow⟩
  fun_induction followRefs buffer size left offset ref with
  | case1 left offset ref hbyte => exact absurd (List.getElem?_eq_none_iff.mp hbyte) (by omega)
  | case2 left offset ref byte hbyte href hshort => exact ⟨ref, rfl⟩
  | case3 left offset ref byte hbyte href hlong hnone =>
    obtain ⟨low, hlow, hsome⟩ := hword hlong hbyte
    rw [hnone] at hsome
    cases hsome
  | case4 left offset ref byte hbyte href hlong word hsome hout => exact ⟨ref, rfl⟩
  | case5 offset ref byte hbyte href hlong word hsome hin => exact ⟨true, rfl⟩
  | case6 offset ref byte hbyte href hlong word hsome hin left ih =>
    obtain ⟨low, hlow, hsome'⟩ := hword hlong hbyte
    have hstart := (mdnsIsStringRef_iff _).mp href
    obtain rfl : byte.toNat * 256 + low.toNat = word := Option.some.inj (hsome'.symm.trans hsome)
    rw [target_eq hstart] at hin ih ⊢
    refine ih (by omega) ?_
    intro hops place length hrest
    have hfew := h (hops + 1) place length (.ref (bytesOf_take_eq.mpr ⟨hoffset, hbyte⟩)
      (bytesOf_take_eq.mpr ⟨by omega, hlow⟩) hstart hrest)
    omega
  | case7 left offset ref byte hbyte href hshort =>
    have hnever := h 0 offset byte (hlabel hoffset hbyte href)
    omega
  | case8 left offset ref byte hbyte href hroom =>
    have hnever := h 0 offset byte (hlabel hoffset hbyte href)
    omega

/-- One of the two is found, and nothing outside the storage is read. -/
theorem mdnsGetNextSubstring_cases (hsize : size ≤ buffer.length) (offset : ℕ) :
    ∃ substr, mdnsGetNextSubstring buffer size offset = some substr ∧
      NextSubstring (bytesOf (buffer.take size)) maxRefs offset substr := by
  unfold mdnsGetNextSubstring
  by_cases hout : size ≤ offset
  · rw [if_pos hout]
    refine ⟨_, rfl, .failed false ?_⟩
    rintro ⟨hops, place, length, label, hleads, -⟩
    obtain ⟨byte, hbyte⟩ := hleads.byte
    exact absurd (lt_size hbyte) (Nat.not_lt.mpr hout)
  rw [if_neg hout]
  by_cases hzero : buffer[offset]? = some 0
  · rw [if_pos hzero]
    have hleads : Leads (bytesOf (buffer.take size)) 0 offset offset 0 :=
      .here (bytesOf_take_eq.mpr ⟨by omega, hzero⟩) (by decide)
    have hnil : ([] : Label).length = (0 : UInt8).toNat := rfl
    exact ⟨_, rfl, .found hleads (Nat.zero_le _) hnil (textAt_nil _ _)⟩
  rw [if_neg hzero]
  by_cases hleads : ∃ hops place length,
      Leads (bytesOf (buffer.take size)) hops offset place length ∧ hops ≤ maxRefs
  · obtain ⟨hops, place, length, hleads, hhops⟩ := hleads
    rw [followRefs_of_leads hleads hhops]
    by_cases hroom : size < place + 1 + length.toNat
    · rw [if_pos hroom]
      refine ⟨_, rfl, .failed _ ?_⟩
      rintro ⟨hops', place', length', label, hleads', -, hlength, htext⟩
      obtain ⟨-, rfl, rfl⟩ := hleads.unique hleads'
      exact absurd ((room_iff hsize hleads).mpr ⟨label, hlength, htext⟩) (by omega)
    · rw [if_neg hroom]
      have hstart : startOf hops place length = place + 1 := by
        unfold startOf
        rw [if_neg]
        rintro ⟨rfl, rfl⟩
        cases hleads with
        | here hbyte hlabel => exact hzero (bytesOf_take_eq.mp hbyte).2
      obtain ⟨label, hlength, htext⟩ := (room_iff hsize hleads).mp (by omega)
      rw [← hstart, Bool.false_or]
      exact ⟨_, rfl, .found hleads hhops hlength htext⟩
  · have hmany : ∀ hops place length,
        Leads (bytesOf (buffer.take size)) hops offset place length → maxRefs < hops := by
      intro hops place length h
      by_contra hfew
      exact hleads ⟨hops, place, length, h, by omega⟩
    obtain ⟨ref, href⟩ := followRefs_of_not_leads false hsize (Nat.not_le.mp hout) hmany
    refine ⟨_, href, .failed ref ?_⟩
    rintro ⟨hops, place, length, label, h, hhops, -⟩
    have hmore := hmany hops place length h
    omega

/-! ## The end of a name -/

/-- The skipping of a name ends behind the part of it that stands at its place. -/
theorem skipFrom_eq (hsize : size ≤ buffer.length) (left cur : ℕ) :
    ∃ result, skipFrom buffer size left cur = some result ∧ ∀ stop, result = some stop ↔
      ∃ count < left, Spans (bytesOf (buffer.take size)) maxRefs cur count stop := by
  induction left generalizing cur with
  | zero =>
    obtain ⟨substr, hget, hsubstr⟩ := mdnsGetNextSubstring_cases hsize cur
    unfold skipFrom
    rw [hget]
    refine ⟨none, ?_, fun stop =>
      ⟨nofun, fun ⟨count, hcount, _⟩ => absurd hcount (Nat.not_lt_zero _)⟩⟩
    cases hsubstr <;> rfl
  | succ left ih =>
    obtain ⟨substr, hget, hsubstr⟩ := mdnsGetNextSubstring_cases hsize cur
    unfold skipFrom
    rw [hget]
    cases hsubstr with
    | failed ref hnone =>
      refine ⟨none, rfl, fun stop => ⟨nofun, ?_⟩⟩
      rintro ⟨count, hcount, hspans⟩
      exact absurd hspans.reaches hnone
    | @found hops place length label hleads hhops hlength htext =>
      by_cases href : hops = 0
      · subst href
        obtain rfl := hleads.place_eq
        by_cases hend : length = 0
        · subst hend
          refine ⟨some (place + 1), by simp [startOf], fun stop => ?_⟩
          simp only [spans_of_root hleads, Option.some.injEq]
          exact ⟨fun h => ⟨0, Nat.succ_pos _, rfl, h.symm⟩, fun ⟨_, _, _, h⟩ => h.symm⟩
        · obtain ⟨result, hresult, hstop⟩ := ih (place + 1 + length.toNat)
          have hne : length.toNat ≠ 0 := fun h => hend (UInt8.toNat_inj.mp h)
          refine ⟨result, by simp [startOf, hend, hne, hresult], fun stop => ?_⟩
          simp only [hstop, spans_of_label hleads hend hlength htext, hlength]
          refine ⟨fun ⟨count, hcount, hspans⟩ => ⟨count + 1, by omega, count, rfl, hspans⟩, ?_⟩
          rintro ⟨_, hcount, count, rfl, hspans⟩
          exact ⟨count, by omega, hspans⟩
      · obtain ⟨hops, rfl⟩ : ∃ rest, hops = rest + 1 := ⟨hops - 1, by omega⟩
        refine ⟨some (cur + 2), by simp, fun stop => ?_⟩
        simp only [spans_of_ref hleads hhops hlength htext, Option.some.injEq]
        exact ⟨fun h => ⟨0, Nat.succ_pos _, rfl, h.symm⟩, fun ⟨_, _, _, h⟩ => h.symm⟩

/-- A name is skipped exactly where at most 64 labels stand at its place. -/
theorem mdnsStringSkip_eq (hsize : size ≤ buffer.length) (offset : ℕ) :
    ∃ result, mdnsStringSkip buffer size offset = some result ∧ ∀ stop, result = some stop ↔
      ∃ count ≤ MDNS_MAX_SUBSTRINGS, Spans (bytesOf (buffer.take size)) maxRefs offset count
        stop := by
  obtain ⟨result, hresult, hstop⟩ := skipFrom_eq hsize (MDNS_MAX_SUBSTRINGS + 1) offset
  refine ⟨result, hresult, fun stop => ?_⟩
  rw [hstop]
  exact exists_congr fun count => and_congr_left' Nat.lt_succ_iff

/-! ## The text of a name -/

/-- A label is copied with its dot as far as there is room. -/
theorem copyLabel_take {start : ℕ} {label : List UInt8}
    (htext : TextAt (bytesOf (buffer.take size)) start label) (hlabel : label ≠ [])
    (text : List UInt8) :
    copyLabel buffer capacity (text.take capacity) start label.length =
      some ((text ++ (label ++ [46])).take capacity) := by
  have hpos := List.length_pos_iff.mpr hlabel
  rw [copyLabel, if_neg (by omega),
    sliceOf_of_textAt htext hlabel (Nat.min_le_left _ _)]
  dsimp only
  by_cases hfull : capacity ≤ text.length
  · have hlength : (text.take capacity).length = capacity := by rw [List.length_take]; omega
    rw [hlength, Nat.sub_self, Nat.min_zero, List.take_zero, List.append_nil, if_neg (by omega),
      List.take_append_of_le_length hfull]
  · have hshort : text.length ≤ capacity := by omega
    rw [List.take_of_length_le hshort, List.take_append, List.take_of_length_le hshort]
    by_cases hroom : text.length + label.length < capacity
    · rw [Nat.min_eq_left (by omega), List.take_of_length_le (l := label) (Nat.le_refl _),
        if_pos (by rw [List.length_append]; exact hroom),
        List.take_of_length_le (by rw [List.length_append, List.length_singleton]; omega),
        List.append_assoc]
    · rw [Nat.min_eq_right (by omega), if_neg (by rw [List.length_append, List.length_take]; omega),
        List.take_append_of_le_length (by omega)]

theorem getD_endPos (endPos : Option ℕ) (hops cur stop : ℕ) :
    (if decide (hops ≠ 0) && endPos.isNone then some (cur + 2) else endPos).getD stop =
      endPos.getD (stopAfter hops cur stop) := by
  unfold stopAfter
  cases endPos with
  | none => by_cases hhops : hops = 0 <;> simp [hhops]
  | some found => simp

/-- A name that ends at once ends behind its zero or behind the reference to it. -/
theorem getD_endPos_root {packet : Bytes} (endPos : Option ℕ)
    (hleads : Leads packet hops cur place 0) :
    (if decide (hops ≠ 0) && endPos.isNone then some (cur + 2) else endPos).getD
        (startOf hops place 0 + (0 : UInt8).toNat + 1) =
      endPos.getD (stopAfter hops cur (cur + 1)) := by
  rw [getD_endPos]
  by_cases hhops : hops = 0
  · subst hhops
    rw [hleads.place_eq]
    rfl
  · simp [stopAfter, hhops]

/-- The text is the labels with their dots, cut where the room ends, and the end is the one
of the part of the name that stands at its place. -/
theorem extractFrom_eq (hsize : size ≤ buffer.length) (capacity left cur : ℕ) (endPos : Option ℕ)
    (text : List UInt8) :
    ∃ result, extractFrom buffer size capacity left cur endPos (text.take capacity) = some result ∧
      ∀ str stop, result = some (str, stop) ↔ ∃ labels stop', labels.length < left ∧
        NameAt (bytesOf (buffer.take size)) maxRefs cur labels stop' ∧
        str = (text ++ dotted labels).take capacity ∧ stop = endPos.getD stop' := by
  induction left generalizing cur endPos text with
  | zero =>
    obtain ⟨substr, hget, hsubstr⟩ := mdnsGetNextSubstring_cases hsize cur
    unfold extractFrom
    rw [hget]
    refine ⟨none, ?_, fun str stop => ⟨nofun, ?_⟩⟩
    · cases hsubstr <;> rfl
    · rintro ⟨labels, stop', hfew, -⟩
      omega
  | succ left ih =>
    obtain ⟨substr, hget, hsubstr⟩ := mdnsGetNextSubstring_cases hsize cur
    unfold extractFrom
    rw [hget]
    cases hsubstr with
    | failed ref hnone =>
      refine ⟨none, rfl, fun str stop => ⟨nofun, ?_⟩⟩
      rintro ⟨labels, stop', hfew, hname, -⟩
      exact absurd hname.reaches hnone
    | @found hops place length label hleads hhops hlength htext =>
      by_cases hend : length = 0
      · subst hend
        refine ⟨some (text.take capacity, endPos.getD (stopAfter hops cur (cur + 1))), ?_,
          fun str stop => ?_⟩
        · rw [← getD_endPos_root endPos hleads]
          simp only [UInt8.toNat_zero, copyLabel, if_true]
        · simp only [nameAt_of_root hleads hhops, Option.some.injEq, Prod.mk.injEq]
          constructor
          · rintro ⟨rfl, rfl⟩
            exact ⟨[], _, Nat.succ_pos _, ⟨rfl, rfl⟩, by rw [dotted_nil, List.append_nil], rfl⟩
          · rintro ⟨_, _, -, ⟨rfl, rfl⟩, rfl, rfl⟩
            exact ⟨by rw [dotted_nil, List.append_nil], rfl⟩
      · have hne : length.toNat ≠ 0 := fun h => hend (UInt8.toNat_inj.mp h)
        have hstart : startOf hops place length = place + 1 := by simp [startOf, hend]
        have hlabel : label ≠ [] := by
          rintro rfl
          exact hne hlength.symm
        have hcopy : copyLabel buffer capacity (text.take capacity) (place + 1) label.length = _ :=
          copyLabel_take htext hlabel text
        rw [hlength] at hcopy
        obtain ⟨result, hresult, hiff⟩ := ih (place + 1 + length.toNat)
          (if decide (hops ≠ 0) && endPos.isNone then some (cur + 2) else endPos)
          (text ++ (label ++ [46]))
        refine ⟨result, ?_, fun str stop => ?_⟩
        · simp only [hstart, hne, if_false, hcopy]
          exact hresult
        · rw [hiff]
          simp only [nameAt_of_label hleads hhops hend hlength htext, hlength, getD_endPos]
          constructor
          · rintro ⟨labels, stop', hfew, hname, rfl, rfl⟩
            refine ⟨_, _, ?_, ⟨labels, stop', hname, rfl, rfl⟩, ?_, rfl⟩
            · rw [List.length_cons]
              omega
            · rw [dotted_cons]
              simp
          · rintro ⟨_, _, hfew, ⟨labels, stop', hname, rfl, rfl⟩, rfl, rfl⟩
            rw [List.length_cons] at hfew
            refine ⟨labels, stop', by omega, hname, ?_, rfl⟩
            rw [dotted_cons]
            simp

/-- The text of a name is read exactly where a name of at most 64 labels is, all of it or as
much as there is room for. -/
theorem mdnsStringExtract_eq (hsize : size ≤ buffer.length) (offset capacity : ℕ) :
    ∃ result, mdnsStringExtract buffer size offset capacity = some result ∧
      ∀ str stop, result = some (str, stop) ↔ ∃ labels, labels.length ≤ MDNS_MAX_SUBSTRINGS ∧
        NameAt (bytesOf (buffer.take size)) maxRefs offset labels stop ∧
        str = (dotted labels).take capacity := by
  obtain ⟨result, hresult, hiff⟩ := extractFrom_eq hsize capacity
    (MDNS_MAX_SUBSTRINGS + 1) offset none []
  rw [List.take_nil] at hresult
  refine ⟨result, hresult, fun str stop => ?_⟩
  rw [hiff]
  constructor
  · rintro ⟨labels, _, hfew, hname, hstr, rfl⟩
    exact ⟨labels, Nat.lt_succ_iff.mp hfew, hname, hstr⟩
  · rintro ⟨labels, hfew, hname, hstr⟩
    exact ⟨labels, stop, Nat.lt_succ_iff.mpr hfew, hname, hstr, rfl⟩

/-- The storage behind the packet does not count for what is skipped. -/
theorem mdnsStringSkip_take (hsize : size ≤ buffer.length) (offset : ℕ) :
    mdnsStringSkip (buffer.take size) size offset = mdnsStringSkip buffer size offset := by
  have hlength : size ≤ (buffer.take size).length := by
    rw [List.length_take]
    omega
  obtain ⟨inside, hinside, hiff⟩ := mdnsStringSkip_eq hlength offset
  obtain ⟨whole, hwhole, hiff'⟩ := mdnsStringSkip_eq hsize offset
  rw [List.take_take, Nat.min_self] at hiff
  rw [hinside, hwhole]
  exact congrArg some (Option.ext fun stop => (hiff stop).trans (hiff' stop).symm)

/-- Nor for what is extracted. -/
theorem mdnsStringExtract_take (hsize : size ≤ buffer.length) (offset capacity : ℕ) :
    mdnsStringExtract (buffer.take size) size offset capacity =
      mdnsStringExtract buffer size offset capacity := by
  have hlength : size ≤ (buffer.take size).length := by
    rw [List.length_take]
    omega
  obtain ⟨inside, hinside, hiff⟩ := mdnsStringExtract_eq hlength offset capacity
  obtain ⟨whole, hwhole, hiff'⟩ := mdnsStringExtract_eq hsize offset capacity
  rw [List.take_take, Nat.min_self] at hiff
  rw [hinside, hwhole]
  exact congrArg some (Option.ext fun read =>
    (hiff read.1 read.2).trans (hiff' read.1 read.2).symm)

/-- Neither reads outside of the packet, whatever it holds: without the storage behind it they
do the same. The text is read exactly where a name stands, and there the name is skipped to the
same place. -/
theorem name_skipped_as_read (hsize : size ≤ buffer.length) (offset capacity : ℕ) :
    ∃ skipped extracted, mdnsStringSkip buffer size offset = some skipped ∧
      mdnsStringSkip (buffer.take size) size offset = some skipped ∧
      mdnsStringExtract buffer size offset capacity = some extracted ∧
      mdnsStringExtract (buffer.take size) size offset capacity = some extracted ∧
      (∀ str stop, extracted = some (str, stop) ↔ ∃ labels, labels.length ≤ MDNS_MAX_SUBSTRINGS ∧
        NameAt (bytesOf (buffer.take size)) maxRefs offset labels stop ∧
        str = (dotted labels).take capacity) ∧
      ∀ read ∈ extracted, skipped = some read.2 ∧ offset < read.2 ∧ read.2 ≤ size := by
  obtain ⟨skipped, hskipped, hskip⟩ := mdnsStringSkip_eq hsize offset
  obtain ⟨extracted, hextracted, hextract⟩ := mdnsStringExtract_eq hsize offset capacity
  refine ⟨skipped, extracted, hskipped, (mdnsStringSkip_take hsize offset).trans hskipped,
    hextracted, (mdnsStringExtract_take hsize offset capacity).trans hextracted, hextract, ?_⟩
  rintro ⟨str, stop⟩ hread
  obtain ⟨labels, hfew, hname, -⟩ := (hextract str stop).mp hread
  obtain ⟨count, hcount, hspans⟩ := hname.spans
  obtain ⟨hlt, byte, hbyte⟩ := hspans.stop_known
  have hlast := lt_size hbyte
  exact ⟨(hskip stop).mpr ⟨count, Nat.le_trans hcount hfew, hspans⟩, hlt, by dsimp only; omega⟩

/-- A name of one label, a reference to it, and what was in the storage before. -/
theorem name_skipped_as_read_ref : ∃ skipped extracted,
    mdnsStringSkip [1, 97, 0, 192, 0, 9] 5 3 = some skipped ∧
      mdnsStringSkip (List.take 5 [1, 97, 0, 192, 0, 9]) 5 3 = some skipped ∧
      mdnsStringExtract [1, 97, 0, 192, 0, 9] 5 3 8 = some extracted ∧
      mdnsStringExtract (List.take 5 [1, 97, 0, 192, 0, 9]) 5 3 8 = some extracted ∧
      (∀ str stop, extracted = some (str, stop) ↔ ∃ labels, labels.length ≤ MDNS_MAX_SUBSTRINGS ∧
        NameAt (bytesOf (List.take 5 [1, 97, 0, 192, 0, 9])) maxRefs 3 labels stop ∧
        str = (dotted labels).take 8) ∧
      ∀ read ∈ extracted, skipped = some read.2 ∧ 3 < read.2 ∧ read.2 ≤ 5 :=
  name_skipped_as_read (by decide) 3 8

end KdeConnectNx.MdnsReader
