import Mathlib.Algebra.GroupWithZero.Nat
import Mathlib.Data.List.Basic
import Mathlib.Tactic.Common

/-!
# Domain names on the wire

A name is a run of labels, each behind its length, and ends with a zero. Two bytes with the
upper bits set refer to another place of the packet, where the name goes on. What is read at
a place, what a name is, and how far it reaches in the packet, for any packet and any bound
on the references in a row. Of a packet some bytes may not be known yet; a name that is read
stays the same when more of them are.
-/

namespace KdeConnectNx.DomainNames

abbrev Label := List UInt8

/-- The bytes that are known, by their places. -/
abbrev Bytes := ℕ → Option UInt8

/-- Of a whole packet all bytes are known. -/
def bytesOf (packet : List UInt8) : Bytes := fun i => packet[i]?

/-- What is known stays known. -/
def Within (p q : Bytes) : Prop := ∀ i byte, p i = some byte → q i = some byte

/-- The labels with a dot behind each. -/
def dotted (labels : List Label) : List UInt8 := labels.flatMap fun label => label ++ [46]

/-- The room the labels and the zero behind them take when nothing is referred to. -/
def room (labels : List Label) : ℕ := (labels.map fun label => label.length + 1).sum + 1

/-- A first byte from here on begins a reference. -/
def refStart : ℕ := 192

/-- The place that two bytes refer to. -/
def target (high low : UInt8) : ℕ := (high.toNat - refStart) * 256 + low.toNat

/-- Over so many references one gets from a place to the byte that begins a label. -/
inductive Leads (packet : Bytes) : ℕ → ℕ → ℕ → UInt8 → Prop
  | here {offset : ℕ} {length : UInt8} (hbyte : packet offset = some length)
      (hlabel : length.toNat < refStart) : Leads packet 0 offset offset length
  | ref {offset place hops : ℕ} {high low length : UInt8} (hhigh : packet offset = some high)
      (hlow : packet (offset + 1) = some low) (href : refStart ≤ high.toNat)
      (hrest : Leads packet hops (target high low) place length) :
      Leads packet (hops + 1) offset place length

/-- A text stands at a place. -/
def TextAt (packet : Bytes) (start : ℕ) (text : List UInt8) : Prop :=
  ∀ i byte, text[i]? = some byte → packet (start + i) = some byte

/-- Behind a reference the packet goes on with the next byte. -/
def stopAfter (hops offset stop : ℕ) : ℕ := if hops = 0 then stop else offset + 2

/-- The labels of the name at a place, and where the packet goes on behind it. -/
inductive NameAt (packet : Bytes) (limit : ℕ) : ℕ → List Label → ℕ → Prop
  | root {offset place hops : ℕ} (hleads : Leads packet hops offset place 0)
    (hhops : hops ≤ limit) :
      NameAt packet limit offset [] (stopAfter hops offset (offset + 1))
  | label {offset place hops stop : ℕ} {length : UInt8} {label : Label} {labels : List Label}
      (hleads : Leads packet hops offset place length) (hhops : hops ≤ limit) (hne : length ≠ 0)
      (hlength : label.length = length.toNat) (htext : TextAt packet (place + 1) label)
      (hrest : NameAt packet limit (place + 1 + label.length) labels stop) :
      NameAt packet limit offset (label :: labels) (stopAfter hops offset stop)

/-- How many labels stand at a place itself, up to the end or the first reference, and where
the packet goes on behind. What a reference leads to need not be a whole name. -/
inductive Spans (packet : Bytes) (limit : ℕ) : ℕ → ℕ → ℕ → Prop
  | root {offset : ℕ} (hleads : Leads packet 0 offset offset 0) :
      Spans packet limit offset 0 (offset + 1)
  | ref {offset place hops : ℕ} {length : UInt8} {label : Label}
      (hleads : Leads packet (hops + 1) offset place length) (hhops : hops + 1 ≤ limit)
      (hlength : label.length = length.toNat) (htext : TextAt packet (place + 1) label) :
      Spans packet limit offset 0 (offset + 2)
  | label {offset count stop : ℕ} {length : UInt8} {label : Label}
      (hleads : Leads packet 0 offset offset length) (hne : length ≠ 0)
      (hlength : label.length = length.toNat) (htext : TextAt packet (offset + 1) label)
      (hrest : Spans packet limit (offset + 1 + label.length) count stop) :
      Spans packet limit offset (count + 1) stop

variable {packet other : Bytes} {limit offset place hops stop count : ℕ} {length : UInt8}
  {label : Label} {labels : List Label}

/-- The root has no text. -/
@[simp] theorem dotted_nil : dotted [] = [] := rfl

/-- A label, a dot, and the rest. -/
@[simp] theorem dotted_cons (label : Label) (labels : List Label) :
    dotted (label :: labels) = label ++ 46 :: dotted labels := by
  simp [dotted]

/-- A label takes one byte more than it has. -/
theorem room_cons (label : Label) (labels : List Label) :
    room (label :: labels) = label.length + 1 + room labels := by
  simp only [room, List.map_cons, List.sum_cons]
  omega

/-- The empty text stands everywhere. -/
theorem textAt_nil (packet : Bytes) (start : ℕ) : TextAt packet start [] := nofun

/-- Without a reference the label stands where one is. -/
theorem Leads.place_eq (h : Leads packet 0 offset place length) : place = offset := by
  cases h with
  | here hbyte hlabel => rfl

/-- The first byte at the place is known. -/
theorem Leads.byte (h : Leads packet hops offset place length) :
    ∃ byte, packet offset = some byte := by
  cases h with
  | here hbyte hlabel => exact ⟨_, hbyte⟩
  | ref hhigh hlow href hrest => exact ⟨_, hhigh⟩

/-- The byte that begins the label is known. -/
theorem Leads.label_byte (h : Leads packet hops offset place length) :
    packet place = some length := by
  induction h with
  | here hbyte hlabel => exact hbyte
  | ref hhigh hlow href hrest ih => exact ih

/-- Of a reference both bytes are known. -/
theorem Leads.ref_byte (h : Leads packet (hops + 1) offset place length) :
    ∃ byte, packet (offset + 1) = some byte := by
  cases h with
  | ref hhigh hlow href hrest => exact ⟨_, hlow⟩

/-! ## What stands at a place is determined -/

/-- A place leads to one label at most. -/
theorem Leads.unique {hops' place' : ℕ} {length' : UInt8}
    (h : Leads packet hops offset place length) (h' : Leads packet hops' offset place' length') :
    hops = hops' ∧ place = place' ∧ length = length' := by
  induction h generalizing hops' with
  | here hbyte hlabel =>
    cases h' with
    | here hbyte' hlabel' =>
      rw [hbyte] at hbyte'
      exact ⟨rfl, rfl, Option.some.inj hbyte'⟩
    | ref hhigh hlow href hrest =>
      rw [hbyte] at hhigh
      cases hhigh
      omega
  | ref hhigh hlow href hrest ih =>
    cases h' with
    | here hbyte hlabel =>
      rw [hhigh] at hbyte
      cases hbyte
      omega
    | ref hhigh' hlow' href' hrest' =>
      rw [hhigh] at hhigh'
      rw [hlow] at hlow'
      cases hhigh'
      cases hlow'
      obtain ⟨hhops, hsame⟩ := ih hrest'
      exact ⟨congrArg (· + 1) hhops, hsame⟩

/-- One text of a length stands at a place. -/
theorem TextAt.unique {start : ℕ} {text text' : List UInt8} (h : TextAt packet start text)
    (h' : TextAt packet start text') (hlength : text.length = text'.length) : text = text' := by
  refine List.ext_getElem hlength fun i hi hi' => ?_
  have hbyte := h i text[i] (List.getElem?_eq_getElem hi)
  rw [h' i text'[i] (List.getElem?_eq_getElem hi')] at hbyte
  exact (Option.some.inj hbyte).symm

/-- A place that leads to the root has the empty name. -/
theorem nameAt_of_root (hleads : Leads packet hops offset place 0) (hhops : hops ≤ limit) :
    NameAt packet limit offset labels stop ↔
      labels = [] ∧ stop = stopAfter hops offset (offset + 1) := by
  refine ⟨fun h => ?_, fun h => ?_⟩
  · cases h with
    | root hleads' hhops' =>
      obtain ⟨rfl, -, -⟩ := hleads.unique hleads'
      exact ⟨rfl, rfl⟩
    | label hleads' hhops' hne hlength htext hrest =>
      exact absurd (hleads.unique hleads').2.2.symm hne
  · rw [h.1, h.2]
    exact .root hleads hhops

/-- A place that leads to a label has a name that begins with it, and only such ones. -/
theorem nameAt_of_label (hleads : Leads packet hops offset place length) (hhops : hops ≤ limit)
    (hne : length ≠ 0) (hlength : label.length = length.toNat)
    (htext : TextAt packet (place + 1) label) :
    NameAt packet limit offset labels stop ↔
      ∃ rest stop', NameAt packet limit (place + 1 + label.length) rest stop' ∧
        labels = label :: rest ∧ stop = stopAfter hops offset stop' := by
  refine ⟨fun h => ?_, fun ⟨rest, stop', hrest, hlabels, hstop⟩ => ?_⟩
  · cases h with
    | root hleads' hhops' => exact absurd (hleads.unique hleads').2.2 hne
    | label hleads' hhops' hne' hlength' htext' hrest =>
      obtain ⟨rfl, rfl, rfl⟩ := hleads.unique hleads'
      obtain rfl := htext.unique htext' (hlength.trans hlength'.symm)
      exact ⟨_, _, hrest, rfl, rfl⟩
  · rw [hlabels, hstop]
    exact .label hleads hhops hne hlength htext hrest

/-- At the root nothing is left to go over. -/
theorem spans_of_root (hleads : Leads packet 0 offset offset 0) :
    Spans packet limit offset count stop ↔ count = 0 ∧ stop = offset + 1 := by
  refine ⟨fun h => ?_, fun h => ?_⟩
  · cases h with
    | root hleads' => exact ⟨rfl, rfl⟩
    | ref hleads' hhops hlength htext => exact absurd (hleads.unique hleads').1 (by omega)
    | label hleads' hne hlength htext hrest => exact absurd (hleads.unique hleads').2.2.symm hne
  · rw [h.1, h.2]
    exact .root hleads

/-- A reference ends what is gone over. -/
theorem spans_of_ref (hleads : Leads packet (hops + 1) offset place length)
    (hhops : hops + 1 ≤ limit)
    (hlength : label.length = length.toNat) (htext : TextAt packet (place + 1) label) :
    Spans packet limit offset count stop ↔ count = 0 ∧ stop = offset + 2 := by
  refine ⟨fun h => ?_, fun h => ?_⟩
  · cases h with
    | root hleads' => exact absurd (hleads.unique hleads').1 (by omega)
    | ref hleads' hhops hlength htext => exact ⟨rfl, rfl⟩
    | label hleads' hne hlength htext hrest => exact absurd (hleads.unique hleads').1 (by omega)
  · rw [h.1, h.2]
    exact .ref hleads hhops hlength htext

/-- A label is gone over, and what stands behind it. -/
theorem spans_of_label (hleads : Leads packet 0 offset offset length) (hne : length ≠ 0)
    (hlength : label.length = length.toNat) (htext : TextAt packet (offset + 1) label) :
    Spans packet limit offset count stop ↔
      ∃ rest, count = rest + 1 ∧ Spans packet limit (offset + 1 + label.length) rest stop := by
  refine ⟨fun h => ?_, fun ⟨rest, hcount, hrest⟩ => ?_⟩
  · cases h with
    | root hleads' => exact absurd (hleads.unique hleads').2.2 hne
    | ref hleads' hhops hlength htext => exact absurd (hleads.unique hleads').1 (by omega)
    | label hleads' hne' hlength' htext' hrest =>
      obtain ⟨-, -, rfl⟩ := hleads.unique hleads'
      obtain rfl := htext.unique htext' (hlength.trans hlength'.symm)
      exact ⟨_, rfl, hrest⟩
  · rw [hcount]
    exact .label hleads hne hlength htext hrest

/-- A label or an end can be reached from a place, and all of it is known. -/
def Reaches (packet : Bytes) (limit offset : ℕ) : Prop :=
  ∃ hops place length label, Leads packet hops offset place length ∧ hops ≤ limit ∧
    label.length = length.toNat ∧ TextAt packet (place + 1) label

/-- Where a name stands a label can be reached. -/
theorem NameAt.reaches (h : NameAt packet limit offset labels stop) :
    Reaches packet limit offset := by
  cases h with
  | root hleads hhops => exact ⟨_, _, _, [], hleads, hhops, rfl, textAt_nil _ _⟩
  | label hleads hhops hne hlength htext hrest => exact ⟨_, _, _, _, hleads, hhops, hlength, htext⟩

/-- The same where only the labels are gone over. -/
theorem Spans.reaches (h : Spans packet limit offset count stop) : Reaches packet limit offset := by
  cases h with
  | root hleads => exact ⟨_, _, _, [], hleads, Nat.zero_le _, rfl, textAt_nil _ _⟩
  | ref hleads hhops hlength htext => exact ⟨_, _, _, _, hleads, hhops, hlength, htext⟩
  | label hleads hne hlength htext hrest =>
    exact ⟨_, _, _, _, hleads, Nat.zero_le _, hlength, htext⟩

/-- What stands behind a name is behind its place, and the byte in front of it is known. -/
theorem Spans.stop_known (h : Spans packet limit offset count stop) :
    offset < stop ∧ ∃ byte, packet (stop - 1) = some byte := by
  induction h with
  | root hleads => exact ⟨by omega, hleads.byte⟩
  | ref hleads hhops hlength htext => exact ⟨by omega, hleads.ref_byte⟩
  | label hleads hne hlength htext hrest ih => exact ⟨by omega, ih.2⟩

/-- Of a name that can be read the packet has the same part. -/
theorem NameAt.spans (h : NameAt packet limit offset labels stop) :
    ∃ count ≤ labels.length, Spans packet limit offset count stop := by
  induction h with
  | @root offset place hops hleads hhops =>
    cases hops with
    | zero =>
      cases hleads with
      | here hbyte hlabel => exact ⟨0, Nat.le_refl 0, .root (.here hbyte hlabel)⟩
    | succ hops =>
      have hnil : ([] : Label).length = (0 : UInt8).toNat := rfl
      exact ⟨0, Nat.le_refl 0, .ref hleads hhops hnil (textAt_nil _ _)⟩
  | @label offset place hops stop length label labels hleads hhops hne hlength htext hrest ih =>
    cases hops with
    | zero =>
      obtain ⟨count, hcount, hspans⟩ := ih
      cases hleads with
      | here hbyte hlabel =>
        exact ⟨count + 1, Nat.succ_le_succ hcount,
          .label (.here hbyte hlabel) hne hlength htext hspans⟩
    | succ hops => exact ⟨0, Nat.zero_le _, .ref hleads hhops hlength htext⟩

/-- A name takes at least one byte. -/
theorem NameAt.lt_stop (h : NameAt packet limit offset labels stop) : offset < stop := by
  obtain ⟨count, -, hspans⟩ := h.spans
  exact hspans.stop_known.1

/-- A text stands where its two halves stand. -/
theorem textAt_append {start : ℕ} {first second : List UInt8} :
    TextAt packet start (first ++ second) ↔
      TextAt packet start first ∧ TextAt packet (start + first.length) second := by
  constructor
  · refine fun h => ⟨fun i byte hbyte => h i byte ?_, fun i byte hbyte => ?_⟩
    · rw [List.getElem?_append_left (List.getElem?_eq_some_iff.mp hbyte).1]
      exact hbyte
    · rw [Nat.add_assoc]
      refine h (first.length + i) byte ?_
      rw [List.getElem?_append_right (Nat.le_add_right _ _), Nat.add_sub_cancel_left]
      exact hbyte
  · rintro ⟨hfirst, hsecond⟩ i byte hbyte
    by_cases hi : i < first.length
    · rw [List.getElem?_append_left hi] at hbyte
      exact hfirst i byte hbyte
    · rw [List.getElem?_append_right (by omega)] at hbyte
      have hplace : start + i = start + first.length + (i - first.length) := by omega
      rw [hplace]
      exact hsecond _ byte hbyte

/-! ## More bytes are known -/

/-- A packet holds its own bytes. -/
theorem Within.refl (p : Bytes) : Within p p := fun _ _ h => h

/-- What holds the bytes of one packet holds those of the packets within it. -/
theorem Within.trans {p q r : Bytes} (h : Within p q) (h' : Within q r) : Within p r :=
  fun i byte hbyte => h' i byte (h i byte hbyte)

/-- Texts stay where they stand while bytes are added. -/
theorem TextAt.mono (hwithin : Within packet other) {start : ℕ} {text : List UInt8}
    (h : TextAt packet start text) : TextAt other start text :=
  fun i byte hbyte => hwithin _ _ (h i byte hbyte)

/-- So do the references to a label. -/
theorem Leads.mono (hwithin : Within packet other) (h : Leads packet hops offset place length) :
    Leads other hops offset place length := by
  induction h with
  | here hbyte hlabel => exact .here (hwithin _ _ hbyte) hlabel
  | ref hhigh hlow href hrest ih => exact .ref (hwithin _ _ hhigh) (hwithin _ _ hlow) href ih

/-- So do names. -/
theorem NameAt.mono (hwithin : Within packet other) (h : NameAt packet limit offset labels stop) :
    NameAt other limit offset labels stop := by
  induction h with
  | root hleads hhops => exact .root (hleads.mono hwithin) hhops
  | label hleads hhops hne hlength htext hrest ih =>
    exact .label (hleads.mono hwithin) hhops hne hlength (htext.mono hwithin) ih

/-- So does what is gone over. -/
theorem Spans.mono (hwithin : Within packet other) (h : Spans packet limit offset count stop) :
    Spans other limit offset count stop := by
  induction h with
  | root hleads => exact .root (hleads.mono hwithin)
  | ref hleads hhops hlength htext =>
    exact .ref (hleads.mono hwithin) hhops hlength (htext.mono hwithin)
  | label hleads hne hlength htext hrest ih =>
    exact .label (hleads.mono hwithin) hne hlength (htext.mono hwithin) ih

/-! ## Names as they are written -/

/-- A text stands where it was put. -/
theorem textAt_of_append (front text rest : List UInt8) :
    TextAt (bytesOf (front ++ (text ++ rest))) front.length text := by
  intro i byte h
  rw [bytesOf, List.getElem?_append_right (Nat.le_add_right _ _), Nat.add_sub_cancel_left,
    List.getElem?_append_left (List.getElem?_eq_some_iff.mp h).1]
  exact h

/-- A zero byte is the root. -/
theorem nameAt_zero (h : packet offset = some 0) : NameAt packet limit offset [] (offset + 1) :=
  (nameAt_of_root (.here h (by decide)) (Nat.zero_le _)).mpr ⟨rfl, rfl⟩

/-- A label in front of a name. -/
theorem nameAt_cons (hne : label ≠ []) (hshort : label.length < refStart)
    (hbyte : packet offset = some (UInt8.ofNat label.length))
    (htext : TextAt packet (offset + 1) label)
    (h : NameAt packet limit (offset + 1 + label.length) labels stop) :
    NameAt packet limit offset (label :: labels) stop := by
  have hlength : (UInt8.ofNat label.length).toNat = label.length := by
    rw [UInt8.toNat_ofNat']
    exact Nat.mod_eq_of_lt (Nat.lt_trans hshort (by decide))
  have hpos := List.length_pos_iff.mpr hne
  have hleads : Leads packet 0 offset offset (UInt8.ofNat label.length) :=
    .here hbyte (hlength.symm ▸ hshort)
  refine (nameAt_of_label hleads (Nat.zero_le _) ?_ hlength.symm htext).mpr
    ⟨labels, stop, h, rfl, rfl⟩
  intro hzero
  rw [hzero] at hlength
  exact absurd hlength.symm (Nat.ne_of_gt hpos)

/-- A name without references. -/
def wire (labels : List Label) : List UInt8 :=
  (labels.flatMap fun label => UInt8.ofNat label.length :: label) ++ [0]

/-- The length, the label, and the rest. -/
theorem wire_cons (label : Label) (labels : List Label) :
    wire (label :: labels) = UInt8.ofNat label.length :: label ++ wire labels := by
  simp [wire]

/-- A name without references takes the room that was counted. -/
theorem length_wire (labels : List Label) : (wire labels).length = room labels := by
  induction labels with
  | nil => rfl
  | cons label labels ih =>
    rw [wire_cons, List.length_append, List.length_cons, ih, room_cons]

/-- A name without references stands where it was put. -/
theorem nameAt_wire (front rest : List UInt8)
    (hlabels : ∀ label ∈ labels, label ≠ [] ∧ label.length < refStart) :
    NameAt (bytesOf (front ++ (wire labels ++ rest))) limit front.length labels
      (front.length + room labels) := by
  induction labels generalizing front with
  | nil => exact nameAt_zero (by simp [wire, bytesOf])
  | cons label labels ih =>
    obtain ⟨hne, hshort⟩ := hlabels label List.mem_cons_self
    have hrest := ih (front ++ (UInt8.ofNat label.length :: label))
      fun other hother => hlabels other (List.mem_cons_of_mem _ hother)
    have htext := textAt_of_append front (UInt8.ofNat label.length :: label) (wire labels ++ rest)
    have hsame : front ++ (wire (label :: labels) ++ rest) =
        front ++ (UInt8.ofNat label.length :: label) ++ (wire labels ++ rest) := by
      rw [wire_cons]
      simp only [List.append_assoc]
    rw [hsame, room_cons]
    rw [← List.append_assoc] at htext
    refine nameAt_cons hne hshort (htext 0 _ rfl) ?_ ?_
    · intro i byte hbyte
      rw [Nat.add_assoc, Nat.add_comm 1 i]
      exact htext (i + 1) byte hbyte
    · rw [List.length_append, List.length_cons] at hrest
      have hplace : front.length + (label.length + 1) = front.length + 1 + label.length := by omega
      have hstop : front.length + 1 + label.length + room labels =
          front.length + (label.length + 1 + room labels) := by omega
      rw [hplace, hstop] at hrest
      exact hrest

/-! ## Names with the same beginning -/

/-- The labels are the same as far as both lists go. -/
def Agree : List Label → List Label → Prop
  | first :: labels, first' :: labels' => first = first' ∧ Agree labels labels'
  | [], _ => True
  | _ :: _, [] => True

/-- A name ends with a label that it has nowhere else. -/
def Closed (last : Label) (labels : List Label) : Prop :=
  ∃ init, labels = init ++ [last] ∧ last ∉ init

/-- Of two neighbouring parts of a name neither begins like the other. -/
def Apart (labels : List Label) : Prop :=
  ∀ front first second, labels = front ++ (first ++ second) → first ≠ [] → second ≠ [] →
    ¬ Agree first second

/-- The labels at a place are these, and more may follow. -/
inductive Begins (packet : Bytes) (limit : ℕ) : ℕ → List Label → Prop
  | nil {offset : ℕ} : Begins packet limit offset []
  | cons {offset place hops : ℕ} {length : UInt8} {label : Label} {labels : List Label}
      (hleads : Leads packet hops offset place length) (hhops : hops ≤ limit) (hne : length ≠ 0)
      (hlength : label.length = length.toNat) (htext : TextAt packet (place + 1) label)
      (hrest : Begins packet limit (place + 1 + label.length) labels) :
      Begins packet limit offset (label :: labels)

/-- The labels stand one behind the other, without a reference, up to a place. -/
inductive Written (packet : Bytes) : ℕ → List Label → ℕ → Prop
  | nil {offset : ℕ} : Written packet offset [] offset
  | cons {offset stop : ℕ} {label : Label} {labels : List Label} (hne : label ≠ [])
      (hshort : label.length < refStart) (hbyte : packet offset = some (UInt8.ofNat label.length))
      (htext : TextAt packet (offset + 1) label)
      (hrest : Written packet (offset + 1 + label.length) labels stop) :
      Written packet offset (label :: labels) stop

variable {last : Label} {labels' : List Label}

/-- Two names that end with the same label, which neither has elsewhere, are equal when one
begins like the other. -/
theorem Closed.eq_of_agree (h : Closed last labels) (h' : Closed last labels')
    (hagree : Agree labels labels') : labels = labels' := by
  obtain ⟨init, rfl, hinit⟩ := h
  obtain ⟨init', rfl, hinit'⟩ := h'
  induction init generalizing init' with
  | nil =>
    cases init' with
    | nil => rfl
    | cons first init' => exact absurd (hagree.1 ▸ List.mem_cons_self) hinit'
  | cons first init ih =>
    cases init' with
    | nil => exact absurd (hagree.1 ▸ List.mem_cons_self) hinit
    | cons first' init' =>
      obtain ⟨rfl, hrest⟩ := hagree
      have hsame := ih (fun h => hinit (List.mem_cons_of_mem _ h)) init'
        (fun h => hinit' (List.mem_cons_of_mem _ h)) hrest
      rw [List.cons_append, List.cons_append, hsame]

/-- A closed name has its last label. -/
theorem Closed.ne_nil (h : Closed last labels) : labels ≠ [] := by
  obtain ⟨init, rfl, -⟩ := h
  exact List.append_ne_nil_of_right_ne_nil _ (List.cons_ne_nil _ _)

/-- What is left of a name ends like it. -/
theorem Closed.tail (h : Closed last (label :: labels)) (hne : labels ≠ []) :
    Closed last labels := by
  obtain ⟨init, heq, hinit⟩ := h
  cases init with
  | nil => exact absurd (List.cons.inj heq).2 hne
  | cons first init =>
    exact ⟨init, (List.cons.inj heq).2, fun h => hinit (List.mem_cons_of_mem _ h)⟩

/-- The parts of a name's rest are apart too. -/
theorem Apart.tail (h : Apart (label :: labels)) : Apart labels := by
  intro front first second heq
  exact h (label :: front) first second (by rw [heq, List.cons_append])

/-- A name in which no label comes twice. -/
theorem apart_of_nodup (h : labels.Nodup) : Apart labels := by
  rintro front first second rfl hfirst hsecond hagree
  cases first with
  | nil => exact hfirst rfl
  | cons a first =>
    cases second with
    | nil => exact hsecond rfl
    | cons b second =>
      obtain rfl := hagree.1
      have hpart := (List.nodup_append.mp (List.nodup_append.mp h).2.1).2.2
      exact hpart a List.mem_cons_self a List.mem_cons_self rfl

/-- Where a name stands its labels begin. -/
theorem NameAt.begins (h : NameAt packet limit offset labels stop) :
    Begins packet limit offset labels := by
  induction h with
  | root hleads hhops => exact .nil
  | label hleads hhops hne hlength htext hrest ih => exact .cons hleads hhops hne hlength htext ih

/-- Labels that begin go on beginning while bytes are added. -/
theorem Begins.mono (hwithin : Within packet other) (h : Begins packet limit offset labels) :
    Begins other limit offset labels := by
  induction h with
  | nil => exact .nil
  | cons hleads hhops hne hlength htext hrest ih =>
    exact .cons (hleads.mono hwithin) hhops hne hlength (htext.mono hwithin) ih

/-- Written labels stay written. -/
theorem Written.mono (hwithin : Within packet other) (h : Written packet offset labels stop) :
    Written other offset labels stop := by
  induction h with
  | nil => exact .nil
  | cons hne hshort hbyte htext hrest ih =>
    exact .cons hne hshort (hwithin _ _ hbyte) (htext.mono hwithin) ih

/-- Labels written one behind the other. -/
theorem Written.append (h : Written packet offset labels place)
    (h' : Written packet place labels' stop) : Written packet offset (labels ++ labels') stop := by
  induction h with
  | nil => exact h'
  | cons hne hshort hbyte htext hrest ih => exact .cons hne hshort hbyte htext (ih h')

/-- Labels in front of a name. -/
theorem Written.nameAt (h : Written packet offset labels place)
    (hname : NameAt packet limit place labels' stop) :
    NameAt packet limit offset (labels ++ labels') stop := by
  induction h with
  | nil => exact hname
  | cons hne hshort hbyte htext hrest ih => exact nameAt_cons hne hshort hbyte htext (ih hname)

/-- A label below the references has its length in one byte. -/
theorem toNat_ofNat_length (hshort : label.length < refStart) :
    (UInt8.ofNat label.length).toNat = label.length := by
  rw [UInt8.toNat_ofNat']
  exact Nat.mod_eq_of_lt (Nat.lt_trans hshort (by decide))

/-- The first of the labels is reached without a reference. -/
theorem Written.leads (h : Written packet offset (label :: labels) stop) :
    Leads packet 0 offset offset (UInt8.ofNat label.length) := by
  cases h with
  | cons hne hshort hbyte htext hrest =>
    exact .here hbyte (by rw [toNat_ofNat_length hshort]; exact hshort)

/-- Written labels begin where they were written. -/
theorem Written.begins (limit : ℕ) (h : Written packet offset labels stop) :
    Begins packet limit offset labels := by
  induction h with
  | nil => exact .nil
  | @cons offset stop label labels hne hshort hbyte htext hrest ih =>
    have hlength := toNat_ofNat_length hshort
    have hpos := List.length_pos_iff.mpr hne
    refine .cons (.here hbyte (hlength.symm ▸ hshort)) (Nat.zero_le _) ?_ hlength.symm htext ih
    intro hzero
    rw [hzero] at hlength
    exact absurd hlength.symm (Nat.ne_of_gt hpos)

/-- A reference to a name that begins with a label. -/
theorem nameAt_ref {high low : UInt8} (hlimit : 1 ≤ limit) (hhigh : packet offset = some high)
    (hlow : packet (offset + 1) = some low) (href : refStart ≤ high.toNat)
    (hleads : Leads packet 0 (target high low) place length)
    (h : NameAt packet limit (target high low) labels stop) :
    NameAt packet limit offset labels (offset + 2) := by
  have hone : Leads packet 1 offset place length := .ref hhigh hlow href hleads
  cases h with
  | root hleads' hhops =>
    obtain ⟨rfl, rfl, rfl⟩ := hleads.unique hleads'
    exact .root hone hlimit
  | label hleads' hhops hne hlength htext hrest =>
    obtain ⟨rfl, rfl, rfl⟩ := hleads.unique hleads'
    exact .label hone hlimit hne hlength htext hrest

/-- A name that needs few references stands for every higher limit. -/
theorem NameAt.more (limit' : ℕ) (hlimit : limit ≤ limit')
    (h : NameAt packet limit offset labels stop) :
    NameAt packet limit' offset labels stop := by
  induction h with
  | root hleads hhops => exact .root hleads (Nat.le_trans hhops hlimit)
  | label hleads hhops hne hlength htext hrest ih =>
    exact .label hleads (Nat.le_trans hhops hlimit) hne hlength htext ih

end KdeConnectNx.DomainNames
