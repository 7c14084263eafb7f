import KdeConnectNx.ReceivedFiles

/-!
# An icon is scaled row by row

The rows of a downloaded picture are decoded one at a time into a buffer, and the
rows of the icon are taken from it and written one at a time to the file. Four
arrays on the stack are used, and every byte of them that is read or written is
noted.
-/

namespace KdeConnectNx.IconWriter

open ReceivedFiles (bytes iconPath iconPathPng)

def kMaxIconPixels : ℕ := 256 * 256
def kMaxIconDim : ℕ := 256

/-- Side of an icon. -/
def kOut : ℕ := 50

def kRgbaSize : ℕ := kOut * kOut * 4

/-- The test of the size; the product is only taken of small numbers. -/
def tooLarge (w h : ℕ) : Bool :=
  decide (kMaxIconDim < w) || decide (kMaxIconDim < h) || decide (kMaxIconPixels < w * h)

/-- A picture that passes the test, with the rows that can be decoded: four bytes a
pixel. -/
structure Picture where
  w : ℕ
  h : ℕ
  rows : List (List UInt8)
  w_pos : 0 < w
  h_pos : 0 < h
  small : tooLarge w h = false
  height : rows.length ≤ h
  width : ∀ row ∈ rows, row.length = w * 4

/-- All of it can be decoded. -/
structure WholePicture extends Picture where
  whole : rows.length = h

/-- A byte of a pixel. -/
def Picture.byte (pic : Picture) (x y i : ℕ) : Option UInt8 :=
  pic.rows[y]?.bind fun row => row[x * 4 + i]?

inductive Buffer where
  | pathIn
  | pathOut
  | rowBuf
  | outRow
  deriving DecidableEq, Repr

/-- The declared lengths. -/
def Buffer.size (hash : String) : Buffer → ℕ
  | .pathIn => (iconPathPng (bytes hash)).length
  | .pathOut => (iconPath (bytes hash)).length
  | .rowBuf => kMaxIconDim * 4
  | .outRow => kOut * 4

/-- A byte that is read or written. -/
structure Access where
  buffer : Buffer
  index : ℕ
  deriving DecidableEq, Repr

def Access.Inside (hash : String) (a : Access) : Prop := a.index < a.buffer.size hash

instance (hash : String) (a : Access) : Decidable (a.Inside hash) :=
  inferInstanceAs (Decidable (_ < _))

/-- The two rows on the stack, whatever they hold at first, and the accesses so
far. -/
structure Frame where
  rowBuf : List UInt8
  outRow : List UInt8
  rowBuf_length : rowBuf.length = kMaxIconDim * 4
  outRow_length : outRow.length = kOut * 4
  accesses : List Access := []

namespace Frame

/-- `memcpy` of a path with its terminator. -/
def copyPath (buffer : Buffer) (path : List Char) (f : Frame) : Frame :=
  { f with accesses := f.accesses ++ (List.range (path.length + 1)).map (Access.mk buffer) }

/-- `png_read_row` writes a row to the start of the buffer. -/
def takeRow (row : List UInt8) (f : Frame) : Frame :=
  { f with
    rowBuf := row.take f.rowBuf.length ++ f.rowBuf.drop row.length
    rowBuf_length := by
      rw [List.length_append, List.length_take, List.length_drop, f.rowBuf_length]
      omega
    accesses := f.accesses ++ (List.range row.length).map (Access.mk .rowBuf) }

/-- `out_row[target] = row_buf[source]`. -/
def copy (source target : ℕ) (f : Frame) : Frame :=
  { f with
    outRow := f.outRow.set target (f.rowBuf.getD source 0)
    outRow_length := by
      rw [List.length_set]
      exact f.outRow_length
    accesses := f.accesses ++ [⟨.rowBuf, source⟩, ⟨.outRow, target⟩] }

def copyPixel (w ox : ℕ) (f : Frame) : Frame :=
  let sx := ox * w / kOut
  (((f.copy (sx * 4) (ox * 4)).copy (sx * 4 + 1) (ox * 4 + 1)).copy (sx * 4 + 2) (ox * 4 + 2)).copy
    (sx * 4 + 3) (ox * 4 + 3)

def copyRow (w : ℕ) (f : Frame) : Frame := (List.range kOut).foldl (fun f ox => f.copyPixel w ox) f

end Frame

/-- The loop of `write_app_icon`. -/
structure Loop where
  frame : Frame
  prevSy : ℤ := -1
  /-- The rows the decoder has delivered. -/
  delivered : List ℕ := []
  file : List UInt8
  outOffset : ℕ := 0

namespace Loop

/-- The decoder delivers the next row, or jumps out of the loop where there is
none. -/
def readRow (pic : Picture) (l : Loop) : Except Loop Loop :=
  match pic.rows[l.delivered.length]? with
  | none => .error l
  | some row =>
    .ok { l with
      prevSy := l.prevSy + 1
      frame := l.frame.takeRow row
      delivered := l.delivered ++ [l.delivered.length] }

/-- `while (prev_sy < sy)`, for at most so many rows. -/
def readTo (pic : Picture) (sy : ℕ) : ℕ → Loop → Except Loop Loop
  | 0, l => if l.prevSy < sy then .error l else .ok l
  | fuel + 1, l =>
    if l.prevSy < sy then do
      let l ← l.readRow pic
      readTo pic sy fuel l
    else .ok l

/-- `fsFileWrite` of the row at the offset, within the file. -/
def writeRow (l : Loop) : Loop :=
  { l with
    file :=
      if l.outOffset + l.frame.outRow.length ≤ l.file.length then
        l.file.take l.outOffset ++ l.frame.outRow ++
          l.file.drop (l.outOffset + l.frame.outRow.length)
      else l.file
    frame := { l.frame with
      accesses := l.frame.accesses ++
        (List.range l.frame.outRow.length).map (Access.mk .outRow) }
    outOffset := l.outOffset + l.frame.outRow.length }

def outputRow (pic : Picture) (l : Loop) (oy : ℕ) : Except Loop Loop := do
  let l ← l.readTo pic (oy * pic.h / kOut) pic.h
  return { l with frame := l.frame.copyRow pic.w }.writeRow

def downsample (pic : Picture) (l : Loop) : Except Loop Loop :=
  (List.range kOut).foldlM (outputRow pic) l

end Loop

/-- `write_app_icon` of a picture that passes the test of its size. The file is made
in its size first; what it holds then is left open. -/
def writeAppIcon (hash : String) (pic : Picture) (f : Frame) (blank : ℕ → UInt8) :
    Except Loop Loop :=
  Loop.downsample pic
    { frame :=
        ({ f with accesses := [] }.copyPath .pathIn (iconPathPng (bytes hash))).copyPath .pathOut
          (iconPath (bytes hash))
      file := (List.range kRgbaSize).map blank }

/-- The loop where it ends, or is left. -/
def last : Except Loop Loop → Loop
  | .ok l => l
  | .error l => l

/-- The file is the picture in the size of an icon, and the rows were delivered in
order and each once. -/
structure Scaled (pic : Picture) (l : Loop) : Prop where
  delivered : l.delivered = List.range l.delivered.length
  rows : l.delivered.length ≤ pic.h
  written : l.outOffset = kRgbaSize
  length : l.file.length = kRgbaSize
  pixels : ∀ oy < kOut, ∀ ox < kOut, ∀ i < 4, ∃ b, l.file[(oy * kOut + ox) * 4 + i]? = some b ∧
    pic.byte (ox * pic.w / kOut) (oy * pic.h / kOut) i = some b

/-- No array is left. -/
def AllInside (hash : String) (l : Loop) : Prop := ∀ a ∈ l.frame.accesses, a.Inside hash

/-- The row or column a place of the icon comes from. -/
theorem scaled_lt {n size : ℕ} (hn : n < kOut) (hpos : 0 < size) : n * size / kOut < size := by
  refine (Nat.div_lt_iff_lt_mul (by decide)).mpr ?_
  rw [Nat.mul_comm size]
  exact Nat.mul_lt_mul_of_pos_right hn hpos

/-! ## The frame -/

section Frames

variable {f : Frame} {w : ℕ}

/-- A picture that got this far is within the limit on both sides. -/
theorem bounds (pic : Picture) : pic.w ≤ kMaxIconDim ∧ pic.h ≤ kMaxIconDim := by
  have hsmall := pic.small
  rw [tooLarge, Bool.or_eq_false_iff, Bool.or_eq_false_iff, decide_eq_false_iff_not,
    decide_eq_false_iff_not] at hsmall
  omega

/-- Copying a byte leaves the row that was read alone. -/
@[simp] theorem rowBuf_copy (source target : ℕ) (f : Frame) :
    (f.copy source target).rowBuf = f.rowBuf := rfl

/-- So does copying a pixel. -/
@[simp] theorem rowBuf_copyPixel (w ox : ℕ) (f : Frame) :
    (f.copyPixel w ox).rowBuf = f.rowBuf := rfl

/-- The byte that was copied, and no other one. -/
theorem getElem?_copy {source target : ℕ} (htarget : target < kOut * 4) (f : Frame) (k : ℕ) :
    (f.copy source target).outRow[k]? =
      if k = target then some (f.rowBuf.getD source 0) else f.outRow[k]? := by
  have hlength : target < f.outRow.length := f.outRow_length ▸ htarget
  have hset : (f.copy source target).outRow = f.outRow.set target (f.rowBuf.getD source 0) := rfl
  rw [hset, List.getElem?_set]
  by_cases hk : k = target
  · rw [if_pos hk.symm, if_pos hlength, if_pos hk]
  · rw [if_neg (Ne.symm hk), if_neg hk]

/-- The byte of the row that goes to the `k`-th place. -/
def source (w k : ℕ) : ℕ := k / 4 * w / kOut * 4 + k % 4

/-- The four bytes of a pixel, and no others. -/
theorem getElem?_copyPixel {ox : ℕ} (hox : ox < kOut) (w : ℕ) (f : Frame) (k : ℕ) :
    (f.copyPixel w ox).outRow[k]? =
      if k / 4 = ox then some (f.rowBuf.getD (source w k) 0) else f.outRow[k]? := by
  have hfirst : ox * 4 < kOut * 4 := by omega
  have hplace : ∀ i < 4, ox * 4 + i < kOut * 4 := by omega
  unfold Frame.copyPixel
  dsimp only
  rw [getElem?_copy (hplace 3 (by decide)), getElem?_copy (hplace 2 (by decide)),
    getElem?_copy (hplace 1 (by decide)), getElem?_copy hfirst]
  simp only [rowBuf_copy]
  by_cases hk : k / 4 = ox
  · have hcases : k % 4 = 0 ∨ k % 4 = 1 ∨ k % 4 = 2 ∨ k % 4 = 3 := by omega
    rw [if_pos hk, source, hk]
    rcases hcases with hmod | hmod | hmod | hmod
    · rw [hmod, if_neg (by omega), if_neg (by omega), if_neg (by omega), if_pos (by omega),
        Nat.add_zero]
    · rw [hmod, if_neg (by omega), if_neg (by omega), if_pos (by omega)]
    · rw [hmod, if_neg (by omega), if_pos (by omega)]
    · rw [hmod, if_pos (by omega)]
  · rw [if_neg hk, if_neg (by omega), if_neg (by omega), if_neg (by omega), if_neg (by omega)]

/-- The copied row has the pixels of the buffer's row at their places. -/
theorem getElem?_copyRow (w : ℕ) (f : Frame) {k : ℕ} (hk : k < kOut * 4) :
    (f.copyRow w).outRow[k]? = some (f.rowBuf.getD (source w k) 0) := by
  have hpart : ∀ n ≤ kOut,
      ((List.range n).foldl (fun f ox => f.copyPixel w ox) f).rowBuf = f.rowBuf ∧
        ∀ k, ((List.range n).foldl (fun f ox => f.copyPixel w ox) f).outRow[k]? =
          if k / 4 < n then some (f.rowBuf.getD (source w k) 0) else f.outRow[k]? := by
    intro n hn
    induction n with
    | zero => exact ⟨rfl, fun k => (if_neg (Nat.not_lt_zero _)).symm⟩
    | succ n ih =>
      obtain ⟨hrow, hout⟩ := ih (by omega)
      rw [List.range_succ, List.foldl_append, List.foldl_cons, List.foldl_nil]
      refine ⟨hrow, fun k => ?_⟩
      rw [getElem?_copyPixel (by omega), hrow, hout]
      by_cases hlast : k / 4 = n
      · rw [if_pos hlast, if_pos (by omega)]
      · by_cases hless : k / 4 < n
        · rw [if_neg hlast, if_pos hless, if_pos (by omega)]
        · rw [if_neg hlast, if_neg hless, if_neg (by omega)]
  rw [Frame.copyRow, (hpart kOut le_rfl).2 k, if_pos (by omega)]

/-- Copying a row leaves the row that was read alone. -/
theorem rowBuf_copyRow (w : ℕ) (f : Frame) : (f.copyRow w).rowBuf = f.rowBuf := by
  unfold Frame.copyRow
  generalize List.range kOut = places
  induction places generalizing f with
  | nil => rfl
  | cons ox places ih => exact ih (f.copyPixel w ox)

/-! ## The accesses -/

/-- The bytes behind the two paths. -/
def terminators (hash : String) : List Access :=
  [⟨.pathIn, Buffer.pathIn.size hash⟩, ⟨.pathOut, Buffer.pathOut.size hash⟩]

/-- The terminators of the paths were written, and nothing else was accessed outside
of its array. -/
structure Noted (hash : String) (f : Frame) : Prop where
  inside : ∀ a ∈ f.accesses, a.Inside hash ∨ a ∈ terminators hash
  outside : ∀ a ∈ terminators hash, a ∈ f.accesses

variable {hash : String} {g : Frame}

/-- Further accesses inside of their arrays change nothing of that. -/
theorem Noted.add (h : Noted hash f) {more : List Access} (hg : g.accesses = f.accesses ++ more)
    (hmore : ∀ a ∈ more, a.Inside hash) : Noted hash g where
  inside := by
    intro a ha
    rw [hg] at ha
    rcases List.mem_append.mp ha with hold | hnew
    · exact h.inside a hold
    · exact .inl (hmore a hnew)
  outside := by
    intro a ha
    rw [hg]
    exact List.mem_append_left _ (h.outside a ha)

/-- The first bytes of a buffer are inside of it. -/
theorem inside_range {buffer : Buffer} {n : ℕ} (h : n ≤ buffer.size hash) :
    ∀ a ∈ (List.range n).map (Access.mk buffer), a.Inside hash := by
  intro a ha
  obtain ⟨index, hindex, rfl⟩ := List.mem_map.mp ha
  exact Nat.lt_of_lt_of_le (List.mem_range.mp hindex) h

/-- A path is copied with its terminator. -/
theorem accesses_copyPath (f : Frame) (buffer : Buffer) (path : List Char) :
    (f.copyPath buffer path).accesses =
      f.accesses ++ (List.range (path.length + 1)).map (Access.mk buffer) :=
  rfl

/-- A path and its terminator. -/
theorem inside_path (hash : String) {buffer : Buffer} {path : List Char}
    (h : buffer.size hash = path.length) :
    ∀ a ∈ (List.range (path.length + 1)).map (Access.mk buffer),
      a.Inside hash ∨ a = ⟨buffer, buffer.size hash⟩ := by
  intro a ha
  rw [List.range_succ, List.map_append] at ha
  rcases List.mem_append.mp ha with hbefore | hlast
  · exact .inl (inside_range h.ge a hbefore)
  · rw [List.map_singleton, List.mem_singleton] at hlast
    exact .inr (h ▸ hlast)

/-- The two paths are what the terminators come from. -/
theorem noted_start (hash : String) (f : Frame) :
    Noted hash (({ f with accesses := [] }.copyPath .pathIn
      (iconPathPng (bytes hash))).copyPath .pathOut
      (iconPath (bytes hash))) where
  inside := by
    intro a ha
    have hin : Buffer.pathIn.size hash = (iconPathPng (bytes hash)).length := rfl
    have hout : Buffer.pathOut.size hash = (iconPath (bytes hash)).length := rfl
    rw [accesses_copyPath, accesses_copyPath, List.nil_append] at ha
    rcases List.mem_append.mp ha with ha | ha
    · rcases inside_path hash hin a ha with hinside | rfl
      · exact .inl hinside
      · exact .inr List.mem_cons_self
    · rcases inside_path hash hout a ha with hinside | rfl
      · exact .inl hinside
      · exact .inr (List.mem_cons_of_mem _ List.mem_cons_self)
  outside := by
    intro a ha
    have hlast : ∀ (buffer : Buffer) (path : List Char), buffer.size hash = path.length →
        (⟨buffer, buffer.size hash⟩ : Access) ∈
          (List.range (path.length + 1)).map (Access.mk buffer) := by
      intro buffer path hsize
      rw [hsize]
      exact List.mem_map_of_mem (List.mem_range.mpr (Nat.lt_succ_self _))
    have hin := hlast .pathIn (iconPathPng (bytes hash)) rfl
    have hout := hlast .pathOut (iconPath (bytes hash)) rfl
    rw [accesses_copyPath, accesses_copyPath, List.nil_append]
    rcases List.mem_cons.mp ha with rfl | ha
    · exact List.mem_append_left _ hin
    · rw [List.mem_singleton] at ha
      rw [ha]
      exact List.mem_append_right _ hout

/-- A row fits its buffer. -/
theorem noted_takeRow (h : Noted hash f) {row : List UInt8} (hrow : row.length ≤ kMaxIconDim * 4) :
    Noted hash (f.takeRow row) := h.add rfl (inside_range hrow)

/-- A byte within both rows. -/
theorem noted_copy (h : Noted hash f) {source target : ℕ} (hsource : source < kMaxIconDim * 4)
    (htarget : target < kOut * 4) : Noted hash (f.copy source target) := by
  refine h.add rfl ?_
  intro a ha
  rcases List.mem_cons.mp ha with rfl | ha
  · exact hsource
  · rw [List.mem_singleton] at ha
    rw [ha]
    exact htarget

/-- The four bytes of a pixel are within the row that was read. -/
theorem noted_copyPixel (h : Noted hash f) (hw : w ≤ kMaxIconDim) (hpos : 0 < w) {ox : ℕ}
    (hox : ox < kOut) : Noted hash (f.copyPixel w ox) := by
  have hpixel := scaled_lt hox hpos
  unfold Frame.copyPixel
  dsimp only
  refine noted_copy (noted_copy (noted_copy (noted_copy h ?_ ?_) ?_ ?_) ?_ ?_) ?_ ?_
  all_goals omega

/-- So are those of all pixels of the icon's row. -/
theorem noted_copyRow (h : Noted hash f) (hw : w ≤ kMaxIconDim) (hpos : 0 < w) :
    Noted hash (f.copyRow w) := by
  have hplaces : ∀ places : List ℕ, (∀ ox ∈ places, ox < kOut) → ∀ f, Noted hash f →
      Noted hash (places.foldl (fun f ox => f.copyPixel w ox) f) := by
    intro places
    induction places with
    | nil => exact fun _ _ h => h
    | cons ox places ih =>
      intro hplaces f h
      exact ih (fun other hm => hplaces other (List.mem_cons_of_mem _ hm)) _
        (noted_copyPixel h hw hpos (hplaces ox List.mem_cons_self))
  exact hplaces _ (fun ox hm => List.mem_range.mp hm) f h

end Frames

/-! ## The loop -/

/-- Either way to leave a loop. -/
def Ends (P Q : Loop → Prop) : Except Loop Loop → Prop
  | .ok l => P l
  | .error l => Q l

/-- What follows starts where the first part ended well. -/
theorem Ends.bind {P P' Q : Loop → Prop} {x : Except Loop Loop} {g : Loop → Except Loop Loop}
    (h : Ends P Q x) (hg : ∀ l, P l → Ends P' Q (g l)) : Ends P' Q (x >>= g) := by
  cases x with
  | ok l => exact hg l h
  | error l => exact h

section Loops

variable {hash : String} {pic : Picture} {l : Loop} {n sy : ℕ}

/-- The rows that were delivered, the last of them in the buffer. -/
structure Ready (hash : String) (pic : Picture) (l : Loop) : Prop where
  prev : l.prevSy = l.delivered.length - 1
  delivered : l.delivered = List.range l.delivered.length
  rows : l.delivered.length ≤ pic.rows.length
  row : ∀ sy row, l.delivered.length = sy + 1 → pic.rows[sy]? = some row →
    l.frame.rowBuf.take row.length = row
  noted : Noted hash l.frame

/-- The loop is only left where a row is missing. -/
def Missing (hash : String) (pic : Picture) (l : Loop) : Prop :=
  pic.rows.length < pic.h ∧ Noted hash l.frame

/-- Every row has four bytes a pixel and fits the buffer. -/
theorem row_length {row : List UInt8} (h : pic.rows[n]? = some row) :
    row.length = pic.w * 4 ∧ row.length ≤ kMaxIconDim * 4 := by
  have hwidth := pic.width row (List.mem_of_getElem? h)
  have hbound := (bounds pic).1
  omega

/-- The row is what stands in the buffer then. -/
theorem take_takeRow (f : Frame) {row : List UInt8} (h : row.length ≤ kMaxIconDim * 4) :
    (f.takeRow row).rowBuf.take row.length = row := by
  have hlength : row.length ≤ f.rowBuf.length := f.rowBuf_length ▸ h
  have hrow : (f.takeRow row).rowBuf = row.take f.rowBuf.length ++ f.rowBuf.drop row.length := rfl
  rw [hrow, List.take_of_length_le hlength, List.take_left]

/-- What reading rows leaves alone. -/
structure SameFile (before l : Loop) : Prop where
  file : l.file = before.file
  outOffset : l.outOffset = before.outOffset

/-- One more row is delivered, or it is the missing one. -/
theorem ready_readRow (h : Ready hash pic l) (hrows : l.delivered.length < pic.h) :
    Ends (fun next => Ready hash pic next ∧ next.delivered.length = l.delivered.length + 1 ∧
      SameFile l next) (Missing hash pic) (l.readRow pic) := by
  unfold Loop.readRow
  cases hrow : pic.rows[l.delivered.length]? with
  | none =>
    have hmissing := List.getElem?_eq_none_iff.mp hrow
    exact ⟨Nat.lt_of_le_of_lt hmissing hrows, h.noted⟩
  | some row =>
    obtain ⟨-, hlength⟩ := row_length hrow
    obtain ⟨hnext, -⟩ := List.getElem?_eq_some_iff.mp hrow
    refine ⟨⟨?_, ?_, ?_, ?_, noted_takeRow h.noted hlength⟩, List.length_append, ⟨rfl, rfl⟩⟩
    · dsimp only
      rw [List.length_append, List.length_singleton, h.prev]
      push_cast
      omega
    · dsimp only
      rw [List.length_append, List.length_singleton, List.range_succ, ← h.delivered]
    · dsimp only
      rw [List.length_append, List.length_singleton]
      exact hnext
    · intro sy other hsy hother
      dsimp only at hsy ⊢
      rw [List.length_append, List.length_singleton] at hsy
      obtain rfl : l.delivered.length = sy := by omega
      rw [hrow] at hother
      obtain rfl := Option.some.inj hother
      exact take_takeRow l.frame hlength

/-- The loop that reads stops with the row in the buffer. -/
theorem ready_readTo (h : Ready hash pic l) (hsy : sy < pic.h) (hle : l.delivered.length ≤ sy + 1)
    {fuel : ℕ} (hfuel : sy + 1 ≤ l.delivered.length + fuel) :
    Ends (fun next => Ready hash pic next ∧ next.delivered.length = sy + 1 ∧ SameFile l next)
      (Missing hash pic) (l.readTo pic sy fuel) := by
  induction fuel generalizing l with
  | zero =>
    have hdone : ¬ l.prevSy < sy := by
      rw [h.prev]
      omega
    unfold Loop.readTo
    rw [if_neg hdone]
    exact ⟨h, by omega, rfl, rfl⟩
  | succ fuel ih =>
    unfold Loop.readTo
    by_cases hmore : l.prevSy < sy
    · rw [if_pos hmore]
      rw [h.prev] at hmore
      refine (ready_readRow h (by omega)).bind ?_
      rintro next ⟨hnext, hcount, hsame⟩
      have hrest := ih hnext (by omega) (by omega)
      generalize next.readTo pic sy fuel = result at hrest ⊢
      cases result with
      | ok final =>
        obtain ⟨hfinal, hlength, hfile⟩ := hrest
        exact ⟨hfinal, hlength, hfile.file.trans hsame.file, hfile.outOffset.trans hsame.outOffset⟩
      | error final => exact hrest
    · rw [if_neg hmore]
      rw [h.prev] at hmore
      exact ⟨h, by omega, rfl, rfl⟩

/-- The byte of the picture that goes to the `k`-th place of the file. -/
def target (pic : Picture) (k : ℕ) : Option UInt8 :=
  pic.byte (k % (kOut * 4) / 4 * pic.w / kOut) (k / (kOut * 4) * pic.h / kOut) (k % 4)

/-- So many rows of the icon are written. -/
structure Written (hash : String) (pic : Picture) (n : ℕ) (l : Loop) : Prop where
  ready : Ready hash pic l
  delivered : l.delivered.length ≤ n * pic.h / kOut + 1
  outOffset : l.outOffset = n * (kOut * 4)
  length : l.file.length = kRgbaSize
  bytes : ∀ k < n * (kOut * 4), l.file[k]? = target pic k

/-- A row of the icon has the pixels of the row in the buffer. -/
theorem copyRow_target (h : Ready hash pic l) (hcount : l.delivered.length = sy + 1)
    (hrow : sy < pic.rows.length) {k : ℕ} (hk : k < kOut * 4) :
    (l.frame.copyRow pic.w).outRow[k]? = pic.byte (k / 4 * pic.w / kOut) sy (k % 4) ∧
      (pic.byte (k / 4 * pic.w / kOut) sy (k % 4)).isSome = true := by
  have hget := List.getElem?_eq_getElem hrow
  obtain ⟨hwidth, -⟩ := row_length hget
  have htake := h.row sy pic.rows[sy] hcount hget
  have hpixel : k / 4 * pic.w / kOut < pic.w := scaled_lt (by omega) pic.w_pos
  have hsource : source pic.w k < pic.rows[sy].length := by
    unfold source
    omega
  have hbyte : pic.byte (k / 4 * pic.w / kOut) sy (k % 4) = pic.rows[sy][source pic.w k]? := by
    rw [Picture.byte, hget]
    rfl
  have hbuffer : l.frame.rowBuf[source pic.w k]? = pic.rows[sy][source pic.w k]? := by
    rw [← List.getElem?_take_of_lt hsource, htake]
  rw [getElem?_copyRow pic.w l.frame hk, List.getD_eq_getElem?_getD, hbuffer, hbyte,
    List.getElem?_eq_getElem hsource]
  exact ⟨rfl, rfl⟩

/-- A row goes where it belongs, within the file. -/
theorem file_writeRow (l : Loop)
    (hfits : l.outOffset + l.frame.outRow.length ≤ l.file.length) :
    l.writeRow.file = l.file.take l.outOffset ++ l.frame.outRow ++
      l.file.drop (l.outOffset + l.frame.outRow.length) := if_pos hfits

/-- The file with a row written at its offset. -/
theorem getElem?_write {file row : List UInt8} {offset : ℕ}
    (hfits : offset + row.length ≤ file.length) (k : ℕ) :
    (file.take offset ++ row ++ file.drop (offset + row.length))[k]? =
      if k < offset then file[k]? else if k < offset + row.length then row[k - offset]?
      else file[k]? := by
  have htake : (file.take offset).length = offset := by
    rw [List.length_take]
    omega
  by_cases hbefore : k < offset
  · rw [if_pos hbefore, List.append_assoc, List.getElem?_append_left (by omega),
      List.getElem?_take_of_lt hbefore]
  · rw [if_neg hbefore]
    by_cases hwithin : k < offset + row.length
    · rw [if_pos hwithin, List.getElem?_append_left (by rw [List.length_append]; omega),
        List.getElem?_append_right (by omega), htake]
    · rw [if_neg hwithin, List.getElem?_append_right (by rw [List.length_append]; omega),
        List.length_append, htake, List.getElem?_drop]
      congr 1
      omega

/-- A row that was copied is written behind the others. -/
theorem written_writeRow {f : Frame} (h : Written hash pic n l) (hn : n < kOut)
    {next : Loop} (hready : Ready hash pic { next with frame := f })
    (hcount : next.delivered.length = n * pic.h / kOut + 1) (hsame : SameFile l next)
    (hrow : ∀ k < kOut * 4, f.outRow[k]? = pic.byte (k / 4 * pic.w / kOut) (n * pic.h / kOut)
      (k % 4)) :
    Written hash pic (n + 1) ({ next with frame := f } : Loop).writeRow := by
  have hoffset : next.outOffset = n * (kOut * 4) := hsame.outOffset.trans h.outOffset
  have hlength : next.file.length = kRgbaSize := (congrArg List.length hsame.file).trans h.length
  have hsize : kRgbaSize = kOut * (kOut * 4) := rfl
  have hnext : (n + 1) * (kOut * 4) ≤ kRgbaSize := hsize ▸ Nat.mul_le_mul_right _ hn
  have hfits : next.outOffset + f.outRow.length ≤ next.file.length := by
    rw [hoffset, f.outRow_length, hlength, ← Nat.succ_mul]
    exact hnext
  have hfile : ({ next with frame := f } : Loop).writeRow.file =
      next.file.take next.outOffset ++ f.outRow ++
        next.file.drop (next.outOffset + f.outRow.length) :=
    file_writeRow { next with frame := f } hfits
  refine ⟨⟨hready.prev, hready.delivered, hready.rows, hready.row, ?_⟩, ?_, ?_, ?_, ?_⟩
  · exact hready.noted.add rfl (inside_range f.outRow_length.le)
  · change next.delivered.length ≤ _
    have hmono : n * pic.h / kOut ≤ (n + 1) * pic.h / kOut :=
      Nat.div_le_div_right (Nat.mul_le_mul_right _ (Nat.le_succ n))
    omega
  · change next.outOffset + f.outRow.length = _
    rw [hoffset, f.outRow_length, Nat.succ_mul]
  · rw [hfile]
    simp only [List.length_append, List.length_take, List.length_drop]
    omega
  · intro k hk
    rw [hfile, getElem?_write hfits, hoffset, f.outRow_length]
    rw [Nat.succ_mul] at hk
    by_cases hold : k < n * (kOut * 4)
    · rw [if_pos hold, hsame.file]
      exact h.bytes k hold
    · have hplace : k - n * (kOut * 4) < kOut * 4 := by omega
      have hdiv : k / (kOut * 4) = n := by
        rw [Nat.div_eq_iff (by decide)]
        omega
      have hmod : k % (kOut * 4) = k - n * (kOut * 4) := by
        have hsplit := Nat.mod_add_div k (kOut * 4)
        rw [hdiv, Nat.mul_comm (kOut * 4)] at hsplit
        omega
      have hfour : (k - n * (kOut * 4)) % 4 = k % 4 := by
        unfold kOut at hold ⊢
        omega
      rw [if_neg hold, if_pos hk, hrow _ hplace, target, hdiv, hmod, hfour]

/-- The step lemma: one more row of the icon is written. -/
theorem written_outputRow (h : Written hash pic n l) (hn : n < kOut) :
    Ends (Written hash pic (n + 1)) (Missing hash pic) (Loop.outputRow pic l n) := by
  have hsy := scaled_lt hn pic.h_pos
  refine (ready_readTo h.ready hsy h.delivered (by omega)).bind ?_
  rintro next ⟨hready, hcount, hsame⟩
  have hrow : n * pic.h / kOut < pic.rows.length := by
    have hrows := hready.rows
    omega
  refine written_writeRow h hn ⟨hready.prev, hready.delivered, hready.rows, ?_, ?_⟩ hcount hsame ?_
  · intro sy row hcount hget
    dsimp only
    rw [rowBuf_copyRow]
    exact hready.row sy row hcount hget
  · exact noted_copyRow hready.noted (bounds pic).1 pic.w_pos
  · exact fun k hk => (copyRow_target hready hcount hrow hk).1

/-- The run lemma. -/
theorem written_downsample (h : Written hash pic 0 l) :
    ∀ n ≤ kOut, Ends (Written hash pic n) (Missing hash pic)
      ((List.range n).foldlM (Loop.outputRow pic) l) := by
  intro n hn
  induction n with
  | zero => exact h
  | succ n ih =>
    rw [List.range_succ, List.foldlM_append]
    refine (ih (by omega)).bind fun next hnext => ?_
    rw [List.foldlM_cons]
    refine (written_outputRow hnext hn).bind fun final hfinal => ?_
    exact hfinal

/-- At the start no row of the icon is written. -/
theorem written_start (hash : String) (pic : Picture) (f : Frame) (blank : ℕ → UInt8) :
    Written hash pic 0
      { frame := ({ f with accesses := [] }.copyPath .pathIn (iconPathPng (bytes hash))).copyPath
          .pathOut (iconPath (bytes hash))
        file := (List.range kRgbaSize).map blank } where
  ready := by
    refine ⟨rfl, rfl, Nat.zero_le _, ?_, noted_start hash f⟩
    intro sy row hsy
    cases hsy
  delivered := Nat.zero_le _
  outOffset := (Nat.zero_mul _).symm
  length := by rw [List.length_map, List.length_range]
  bytes := by
    intro k hk
    rw [Nat.zero_mul] at hk
    exact absurd hk (Nat.not_lt_zero k)

/-- The loop writes every row, or is left where one is missing. -/
theorem written_writeAppIcon (hash : String) (pic : Picture) (f : Frame) (blank : ℕ → UInt8) :
    Ends (Written hash pic kOut) (Missing hash pic) (writeAppIcon hash pic f blank) :=
  written_downsample (written_start hash pic f blank) kOut le_rfl

/-- Of every byte of the icon the picture has one. -/
theorem isSome_byte (pic : WholePicture) {ox oy i : ℕ} (hox : ox < kOut) (hoy : oy < kOut)
    (hi : i < 4) :
    (pic.byte (ox * pic.w / kOut) (oy * pic.h / kOut) i).isSome = true := by
  have hx := scaled_lt hox pic.w_pos
  have hrow : oy * pic.h / kOut < pic.rows.length := pic.whole.symm ▸ scaled_lt hoy pic.h_pos
  have hget := List.getElem?_eq_getElem hrow
  obtain ⟨hwidth, -⟩ := row_length hget
  rw [Picture.byte, hget, Option.bind_some, List.getElem?_eq_getElem (by omega)]
  rfl

end Loops

/-- Every picture that is small enough and can be decoded is scaled, whatever the
rows and the file hold at first. -/
theorem scaled_writeAppIcon (hash : String) (pic : WholePicture) (f : Frame) (blank : ℕ → UInt8) :
    ∃ l, writeAppIcon hash pic.toPicture f blank = .ok l ∧ Scaled pic.toPicture l := by
  have hends := written_writeAppIcon hash pic.toPicture f blank
  generalize writeAppIcon hash pic.toPicture f blank = result at hends ⊢
  cases result with
  | error l =>
    have hmissing := hends.1
    rw [pic.whole] at hmissing
    exact absurd hmissing (Nat.lt_irrefl _)
  | ok l =>
    have hwritten : Written hash pic.toPicture kOut l := hends
    refine ⟨l, rfl, hwritten.ready.delivered, hwritten.ready.rows.trans pic.height,
      hwritten.outOffset, hwritten.length, ?_⟩
    intro oy hoy ox hox i hi
    obtain ⟨b, hb⟩ := Option.isSome_iff_exists.mp (isSome_byte pic hox hoy hi)
    have hplace : (oy * kOut + ox) * 4 + i = oy * (kOut * 4) + (ox * 4 + i) := by
      unfold kOut
      omega
    have hk : (oy * kOut + ox) * 4 + i < kOut * (kOut * 4) := by
      unfold kOut at hoy hox ⊢
      omega
    have hsmall : ox * 4 + i < kOut * 4 := by omega
    have hdiv : ((oy * kOut + ox) * 4 + i) / (kOut * 4) = oy := by
      rw [Nat.div_eq_iff (by decide), hplace]
      omega
    have hmod : ((oy * kOut + ox) * 4 + i) % (kOut * 4) = ox * 4 + i := by
      rw [hplace, Nat.mul_comm, Nat.mul_add_mod, Nat.mod_eq_of_lt hsmall]
    have hcolumn : (ox * 4 + i) / 4 = ox := by omega
    have hbyte : ((oy * kOut + ox) * 4 + i) % 4 = i := by omega
    refine ⟨b, ?_, hb⟩
    rw [hwritten.bytes _ hk, target, hdiv, hmod, hcolumn, hbyte]
    exact hb

/-- However it ends, the terminators were written and nothing else was accessed outside. -/
theorem noted_last (hash : String) (pic : Picture) (f : Frame) (blank : ℕ → UInt8) :
    Noted hash (last (writeAppIcon hash pic f blank)).frame := by
  have hends := written_writeAppIcon hash pic f blank
  generalize writeAppIcon hash pic f blank = result at hends ⊢
  cases result with
  | ok l => exact hends.ready.noted
  | error l => exact hends.2

/-- A terminator lies one byte behind its array. -/
theorem not_inside_of_terminators {hash : String} {a : Access} (h : a ∈ terminators hash) :
    ¬ a.Inside hash := by
  rcases List.mem_cons.mp h with rfl | h
  · exact Nat.lt_irrefl _
  · rw [List.mem_singleton] at h
    rw [h]
    exact Nat.lt_irrefl _

/-- So not every access was inside. -/
theorem not_allInside {hash : String} {l : Loop} (h : Noted hash l.frame) : ¬ AllInside hash l := by
  intro hall
  have hfirst : (⟨.pathIn, Buffer.pathIn.size hash⟩ : Access) ∈ terminators hash :=
    List.mem_cons_self
  exact not_inside_of_terminators hfirst (hall _ (h.outside _ hfirst))

/-- For every hash and every picture, also one that breaks off, the terminators of
both paths are written behind their arrays, and nothing else is out of its array. -/
theorem overruns (hash : String) (pic : Picture) (f : Frame) (blank : ℕ → UInt8) :
    ¬ AllInside hash (last (writeAppIcon hash pic f blank)) ∧
      ∀ a ∈ (last (writeAppIcon hash pic f blank)).frame.accesses,
        ¬ a.Inside hash ↔ a ∈ terminators hash := by
  have hnoted := noted_last hash pic f blank
  exact ⟨not_allInside hnoted, fun a ha =>
    ⟨fun houtside => (hnoted.inside a ha).resolve_left houtside, not_inside_of_terminators⟩⟩

/-- A picture of one pixel. -/
def onePixel : Picture where
  w := 1
  h := 1
  rows := [[0, 0, 0, 255]]
  w_pos := by decide
  h_pos := by decide
  small := by decide
  height := by decide
  width := by decide

def zeroFrame : Frame where
  rowBuf := List.replicate (kMaxIconDim * 4) 0
  outRow := List.replicate (kOut * 4) 0
  rowBuf_length := List.length_replicate
  outRow_length := List.length_replicate

/-- Two pixels over two others, all of which can be decoded. -/
def fourPixels : WholePicture where
  w := 2
  h := 2
  rows := [[255, 0, 0, 255, 0, 255, 0, 255], [0, 0, 255, 255, 0, 0, 0, 0]]
  w_pos := by decide
  h_pos := by decide
  small := by decide
  height := by decide
  width := by decide
  whole := rfl

/-- A picture of two rows with two pixels each. -/
theorem scaled_writeAppIcon_fourPixels :
    ∃ l, writeAppIcon "5d" fourPixels.toPicture zeroFrame (fun _ => 0) = .ok l ∧
      Scaled fourPixels.toPicture l :=
  scaled_writeAppIcon "5d" fourPixels zeroFrame fun _ => 0

/-- The path of its download is copied with a byte more than its array has. -/
theorem notAllInside_onePixel :
    ¬ ∀ (hash : String) (pic : Picture) (f : Frame) (blank : ℕ → UInt8),
      AllInside hash (last (writeAppIcon hash pic f blank)) := fun h =>
  not_allInside (noted_last "5d" onePixel zeroFrame fun _ => 0)
    (h "5d" onePixel zeroFrame fun _ => 0)

end KdeConnectNx.IconWriter
