import KdeConnectNx.InPlace

/-!
# Album art is scaled in place

The overlay scales a decoded picture down in the buffer it was decoded into.
Sizes are small enough for the products of the loop to fit an `int`, so they are
natural numbers here. The exact sizes are found for which the loop stays inside
the buffer and leaves the nearest neighbours of the picture as it was decoded.
-/

namespace KdeConnectNx.ArtScaling

open InPlace

inductive Layout where
  /-- Album art on the left. -/
  | side
  /-- Album art above the text, where this width is available. -/
  | top (availW : Nat)
  deriving DecidableEq, Repr

/-- Side of the thumbnail. -/
def kArtDim : Nat := 80

/-- Height that is available above the text. -/
def availH : Nat := 270

/-- A decoded picture has pixels. -/
structure Size where
  w : Nat
  h : Nat
  w_pos : 0 < w
  h_pos : 0 < h

/-- The width and height a picture is scaled to. -/
def Layout.target (layout : Layout) (src : Size) : Nat × Nat :=
  match layout with
  | .top availW =>
    let fitted := if availW < src.w then (availW, max 1 (src.h * availW / src.w))
        else (src.w, src.h)
    if availH < fitted.2 then (max 1 (src.w * availH / src.h), availH) else fitted
  | .side => (kArtDim, kArtDim)

/-- The loop of `setAlbumArt`. An index outside the buffer ends it without a
result. -/
def resize (srcW srcH dstW dstH : Nat) (decoded : List UInt8) : Option (List UInt8) :=
  if dstW ≠ srcW ∨ dstH ≠ srcH then
    (List.range dstH).foldlM (fun decoded oy =>
      let sy := oy * srcH / dstH
      (List.range dstW).foldlM (fun decoded ox =>
        let sx := ox * srcW / dstW
        let ri := (sy * srcW + sx) * 4
        let wi := (oy * dstW + ox) * 4
        (List.range 4).foldlM (fun decoded i => move decoded (ri + i) (wi + i)) decoded) decoded)
      decoded
  else some decoded

/-- The buffer begins with the nearest neighbours of another one's pixels. -/
def NearestNeighbour (srcW srcH dstW dstH : Nat) (decoded out : List UInt8) : Prop :=
  ∀ oy < dstH, ∀ ox < dstW, ∀ i < 4, out[(oy * dstW + ox) * 4 + i]? =
    decoded[((oy * srcH / dstH) * srcW + ox * srcW / dstW) * 4 + i]?

/-- Every picture of this size is scaled inside its buffer, and right. -/
def ScalesInPlace (layout : Layout) (src : Size) : Prop :=
  ∀ decoded : List UInt8, decoded.length = src.w * src.h * 4 →
    ∃ out, resize src.w src.h (layout.target src).1 (layout.target src).2 decoded = some out ∧
      NearestNeighbour src.w src.h (layout.target src).1 (layout.target src).2 decoded out

/-- The pixel that goes to the `k`-th place. -/
def pixel (srcW srcH dstW dstH k : Nat) : Nat :=
  (k / dstW * srcH / dstH) * srcW + k % dstW * srcW / dstW

/-- The byte that goes to the `k`-th place. -/
def byte (srcW srcH dstW dstH k : Nat) : Nat := pixel srcW srcH dstW dstH (k / 4) * 4 + k % 4

section Loop

variable {srcW srcH dstW dstH : Nat}

theorem pixel_row {ox : Nat} (h : ox < dstW) (oy : Nat) :
    pixel srcW srcH dstW dstH (oy * dstW + ox) = (oy * srcH / dstH) * srcW + ox * srcW / dstW := by
  have hpos : 0 < dstW := by omega
  rw [pixel, Nat.mul_comm oy dstW, Nat.mul_add_div hpos, Nat.div_eq_of_lt h, Nat.mul_add_mod,
    Nat.mod_eq_of_lt h, Nat.add_zero]

theorem byte_pixel {i : Nat} (h : i < 4) (k : Nat) :
    byte srcW srcH dstW dstH (k * 4 + i) = pixel srcW srcH dstW dstH k * 4 + i := by
  have hdiv : (k * 4 + i) / 4 = k := by omega
  have hmod : (k * 4 + i) % 4 = i := by omega
  rw [byte, hdiv, hmod]

/-- The three loops fill the places one after the other. -/
theorem resize_eq_gather (h : dstW ≠ srcW ∨ dstH ≠ srcH) (decoded : List UInt8) :
    resize srcW srcH dstW dstH decoded =
      gather (byte srcW srcH dstW dstH) (dstH * dstW * 4) decoded := by
  rw [resize, if_pos h, gather, foldlM_range_mul, foldlM_range_mul]
  refine foldlM_congr ?_ decoded
  intro oy _ decoded
  refine foldlM_congr ?_ decoded
  intro ox hox decoded
  refine foldlM_congr ?_ decoded
  intro i hi decoded
  rw [byte_pixel (List.mem_range.mp hi), pixel_row (List.mem_range.mp hox)]

/-- A place is one of a row, a column and a byte. -/
theorem forall_places (P : Nat → Prop) :
    (∀ k < dstH * dstW * 4, P k) ↔
      ∀ oy < dstH, ∀ ox < dstW, ∀ i < 4, P ((oy * dstW + ox) * 4 + i) := by
  constructor
  · intro h oy hoy ox hox i hi
    have hrow : (oy + 1) * dstW ≤ dstH * dstW := Nat.mul_le_mul_right _ hoy
    rw [Nat.succ_mul] at hrow
    exact h _ (by omega)
  · intro h k hk
    have hpixel : k / 4 < dstH * dstW := by omega
    have hpos : 0 < dstW := by
      rcases Nat.eq_zero_or_pos dstW with hzero | hpos
      · rw [hzero] at hpixel
        omega
      · exact hpos
    have hrow : k / 4 / dstW < dstH := by
      rw [Nat.div_lt_iff_lt_mul hpos]
      exact hpixel
    have hplace := h (k / 4 / dstW) hrow (k / 4 % dstW) (Nat.mod_lt _ hpos) (k % 4)
      (Nat.mod_lt _ (by decide))
    have hk' : (k / 4 / dstW * dstW + k / 4 % dstW) * 4 + k % 4 = k := by
      rw [Nat.div_add_mod']
      omega
    rw [hk'] at hplace
    exact hplace

/-- The pixel of a place is in the picture. -/
theorem pixel_lt {oy ox : Nat} (hoy : oy < dstH) (hox : ox < dstW) (hw : 0 < srcW) (hh : 0 < srcH) :
    pixel srcW srcH dstW dstH (oy * dstW + ox) < srcW * srcH := by
  have hsy : oy * srcH / dstH < srcH := by
    rw [Nat.div_lt_iff_lt_mul (by omega), Nat.mul_comm srcH]
    exact Nat.mul_lt_mul_of_pos_right hoy hh
  have hsx : ox * srcW / dstW < srcW := by
    rw [Nat.div_lt_iff_lt_mul (by omega), Nat.mul_comm srcW]
    exact Nat.mul_lt_mul_of_pos_right hox hw
  have hrow : (oy * srcH / dstH + 1) * srcW ≤ srcH * srcW := Nat.mul_le_mul_right _ hsy
  rw [Nat.succ_mul, Nat.mul_comm srcH] at hrow
  rw [pixel_row hox]
  omega

/-- No pixel is read after its place was given to another one. -/
def ReadInTime (srcW srcH dstW dstH : Nat) : Prop :=
  ∀ k < dstH * dstW, pixel srcW srcH dstW dstH k < k →
    pixel srcW srcH dstW dstH (pixel srcW srcH dstW dstH k) = pixel srcW srcH dstW dstH k

/-- Bytes are read in time as their pixels are. -/
theorem byte_inTime_iff : (∀ k < dstH * dstW * 4, byte srcW srcH dstW dstH k < k →
      byte srcW srcH dstW dstH (byte srcW srcH dstW dstH k) = byte srcW srcH dstW dstH k) ↔
    ReadInTime srcW srcH dstW dstH := by
  constructor
  · intro h k hk hearly
    have hzero : 0 < 4 := by decide
    have hbyte := h (k * 4 + 0) (by omega)
    rw [byte_pixel hzero, byte_pixel hzero] at hbyte
    have hsame := hbyte (by omega)
    omega
  · intro h k hk hearly
    have hi : k % 4 < 4 := Nat.mod_lt _ (by decide)
    have hk' : k / 4 * 4 + k % 4 = k := by omega
    rw [← hk', byte_pixel hi, byte_pixel hi]
    rw [← hk', byte_pixel hi] at hearly
    rw [h (k / 4) (by omega) (by omega)]

/-- A picture that keeps its size is its own nearest neighbour. -/
theorem pixel_same (hw : 0 < srcW) (hh : 0 < srcH) (k : Nat) :
    pixel srcW srcH srcW srcH k = k := by
  rw [pixel, Nat.mul_div_cancel _ hh, Nat.mul_div_cancel _ hw, Nat.div_add_mod']

/-- All pictures of a size are scaled right exactly if the target is no larger
than the buffer and every pixel is read in time. -/
theorem resize_iff (hw : 0 < srcW) (hh : 0 < srcH) :
    (∀ decoded : List UInt8, decoded.length = srcW * srcH * 4 →
      ∃ out, resize srcW srcH dstW dstH decoded = some out ∧
        NearestNeighbour srcW srcH dstW dstH decoded out) ↔
      dstH * dstW ≤ srcW * srcH ∧ ReadInTime srcW srcH dstW dstH := by
  have hnear : ∀ decoded out : List UInt8, NearestNeighbour srcW srcH dstW dstH decoded out ↔
      ∀ k < dstH * dstW * 4, out[k]? = decoded[byte srcW srcH dstW dstH k]? := by
    intro decoded out
    rw [forall_places]
    constructor
    · intro h oy hoy ox hox i hi
      rw [byte_pixel hi, pixel_row hox]
      exact h oy hoy ox hox i hi
    · intro h oy hoy ox hox i hi
      have hplace := h oy hoy ox hox i hi
      rw [byte_pixel hi, pixel_row hox] at hplace
      exact hplace
  by_cases hsize : dstW ≠ srcW ∨ dstH ≠ srcH
  · have hbytes : Nontrivial UInt8 := ⟨0, 1, by decide⟩
    have hgather := gathers_iff (α := UInt8) (byte srcW srcH dstW dstH) (dstH * dstW * 4)
      (srcW * srcH * 4)
    rw [byte_inTime_iff] at hgather
    have hinside : ∀ k < dstH * dstW * 4, byte srcW srcH dstW dstH k < srcW * srcH * 4 := by
      rw [forall_places]
      intro oy hoy ox hox i hi
      have hpixel := pixel_lt hoy hox hw hh
      rw [byte_pixel hi]
      omega
    constructor
    · intro h
      have hall : ∀ decoded : List UInt8, decoded.length = srcW * srcH * 4 →
          Gathers (byte srcW srcH dstW dstH) (dstH * dstW * 4) decoded := by
        intro decoded hlength
        obtain ⟨out, hout, hright⟩ := h decoded hlength
        exact ⟨out, (resize_eq_gather hsize decoded).symm.trans hout, (hnear _ _).mp hright⟩
      obtain ⟨hlarge, -, htime⟩ := hgather.mp hall
      exact ⟨by omega, htime⟩
    · rintro ⟨hlarge, htime⟩ decoded hlength
      obtain ⟨out, hout, hright⟩ := hgather.mpr ⟨by omega, hinside, htime⟩ decoded hlength
      exact ⟨out, (resize_eq_gather hsize decoded).trans hout, (hnear _ _).mpr hright⟩
  · obtain ⟨rfl, rfl⟩ : dstW = srcW ∧ dstH = srcH := by
      rw [not_or, not_not, not_not] at hsize
      exact hsize
    refine iff_of_true ?_ ⟨Nat.le_of_eq (Nat.mul_comm _ _), ?_⟩
    · intro decoded hlength
      refine ⟨decoded, if_neg hsize, (hnear _ _).mpr ?_⟩
      intro k hk
      rw [byte, pixel_same hw hh, Nat.div_add_mod']
    · intro k hk hearly
      rw [pixel_same hw hh] at hearly
      exact absurd hearly (Nat.lt_irrefl k)

/-- A target no wider and no higher than the picture. -/
theorem readInTime_of_le (hw : dstW ≤ srcW) (hh : dstH ≤ srcH) :
    ReadInTime srcW srcH dstW dstH := by
  intro k hk hearly
  have hpos : 0 < dstW := by
    rcases Nat.eq_zero_or_pos dstW with hzero | hpos
    · rw [hzero] at hk
      omega
    · exact hpos
  have hposH : 0 < dstH := by
    rcases Nat.eq_zero_or_pos dstH with hzero | hposH
    · rw [hzero] at hk
      omega
    · exact hposH
  have hrow : k / dstW ≤ k / dstW * srcH / dstH := by
    rw [Nat.le_div_iff_mul_le hposH]
    exact Nat.mul_le_mul_left _ hh
  have hcolumn : k % dstW ≤ k % dstW * srcW / dstW := by
    rw [Nat.le_div_iff_mul_le hpos]
    exact Nat.mul_le_mul_left _ hw
  have hplace : k / dstW * dstW ≤ k / dstW * srcH / dstH * srcW := Nat.mul_le_mul hrow hw
  have hk' := Nat.div_add_mod' k dstW
  have hlate : k ≤ pixel srcW srcH dstW dstH k := by
    rw [pixel]
    omega
  omega

end Loop

/-- Above the text pictures are only ever made smaller. -/
theorem target_top (availW : Nat) (src : Size) :
    ((Layout.top availW).target src).1 ≤ src.w ∧ ((Layout.top availW).target src).2 ≤ src.h := by
  have hw := src.w_pos
  have hh := src.h_pos
  have hscaled : ∀ x y z : Nat, 0 < x → y ≤ z → max 1 (x * y / z) ≤ x := by
    intro x y z hx hyz
    refine Nat.max_le.mpr ⟨hx, ?_⟩
    exact Nat.div_le_of_le_mul (by rw [Nat.mul_comm]; exact Nat.mul_le_mul_right _ hyz)
  unfold Layout.target
  dsimp only
  by_cases hwide : availW < src.w
  · rw [if_pos hwide]
    have hheight := hscaled src.h availW src.w hh (Nat.le_of_lt hwide)
    dsimp only
    split
    · next htall => exact ⟨hscaled src.w availH src.h hw (by omega), by omega⟩
    · exact ⟨Nat.le_of_lt hwide, hheight⟩
  · rw [if_neg hwide]
    dsimp only
    split
    · next htall => exact ⟨hscaled src.w availH src.h hw (by omega), by omega⟩
    · exact ⟨Nat.le_refl _, Nat.le_refl _⟩

/-- The pictures that can be made a thumbnail in place: none of the sides is
shorter than the thumbnail's; or a column of one pixel that is as long as all of
the thumbnail; or a wide one that has as many pixels, each of which that is read
after its place was filled having been put there itself. -/
def FitsThumbnail (src : Size) : Prop :=
  (kArtDim ≤ src.w ∧ kArtDim ≤ src.h) ∨
    (src.w = 1 ∧ kArtDim * kArtDim ≤ src.h) ∨
    (kArtDim ≤ src.w ∧ src.h < kArtDim ∧ kArtDim * kArtDim ≤ src.w * src.h ∧
      ∀ oy < kArtDim, ∀ ox < kArtDim,
        oy * src.h / kArtDim * src.w + ox * src.w / kArtDim < oy * kArtDim + ox →
        (oy * src.h / kArtDim * src.w + ox * src.w / kArtDim) % kArtDim = ox ∧
          (oy * src.h / kArtDim * src.w + ox * src.w / kArtDim) / kArtDim * src.h / kArtDim =
            oy * src.h / kArtDim)

/-- The sizes of pictures that are scaled right in a layout. -/
def Layout.Fits (src : Size) : Layout → Prop
  | .top _ => True
  | .side => FitsThumbnail src

section Thumbnail

variable {w h : Nat}

/-- A column of one pixel: a row of the thumbnail has one colour, and may be
read where it was written. -/
theorem readInTime_column (hh : kArtDim * kArtDim ≤ h) : ReadInTime 1 h kArtDim kArtDim := by
  have hpixel : ∀ k, pixel 1 h kArtDim kArtDim k = k / kArtDim * h / kArtDim := by
    intro k
    have hcolumn : k % kArtDim * 1 / kArtDim = 0 := by
      rw [Nat.mul_one]
      exact Nat.div_eq_of_lt (Nat.mod_lt _ (by decide))
    rw [pixel, hcolumn, Nat.mul_one, Nat.add_zero]
  intro k hk hearly
  rw [hpixel] at hearly
  have hrow : k / kArtDim * kArtDim ≤ k / kArtDim * h / kArtDim := by
    rw [Nat.le_div_iff_mul_le (by decide), Nat.mul_assoc]
    exact Nat.mul_le_mul_left _ hh
  have hsame : k / kArtDim * h / kArtDim / kArtDim = k / kArtDim := by
    unfold kArtDim at hrow hearly ⊢
    omega
  rw [hpixel, hpixel, hsame]

/-- A picture that is less wide than the thumbnail, but more than one pixel: the
second pixel of the first row is lost before it is read for the last time. -/
theorem not_readInTime_narrow (hone : 1 < w) (hnarrow : w < kArtDim) :
    ¬ ReadInTime w h kArtDim kArtDim := by
  have hpixel : ∀ k < kArtDim, pixel w h kArtDim kArtDim k = k * w / kArtDim := by
    intro k hk
    rw [pixel, Nat.div_eq_of_lt hk, Nat.mod_eq_of_lt hk, Nat.zero_mul, Nat.zero_div, Nat.zero_mul,
      Nat.zero_add]
  intro hall
  unfold kArtDim at *
  -- the first place that is filled with the second pixel
  have hk : (79 + w) / w * w = 79 + w - (79 + w) % w := by
    have hmod := Nat.div_add_mod' (79 + w) w
    omega
  have hmod := Nat.mod_lt (79 + w) (by omega : 0 < w)
  have htwo : 2 ≤ (79 + w) / w := by
    rw [Nat.le_div_iff_mul_le (by omega)]
    omega
  have hless : (79 + w) / w < 80 := by
    rw [Nat.div_lt_iff_lt_mul (by omega)]
    omega
  have hread : (79 + w) / w * w / 80 = 1 := by omega
  have hone' : 1 * w / 80 = 0 := by omega
  have htime := hall ((79 + w) / w) (by omega)
  rw [hpixel _ hless, hread, hpixel 1 (by decide), hone'] at htime
  exact absurd (htime (by omega)) (by decide)

/-- In a picture that is wide enough no two columns go to one. -/
theorem column_injective (hw : kArtDim ≤ w) {first second : Nat}
    (heq : first * w / kArtDim = second * w / kArtDim) : first = second := by
  have hstep : ∀ a b : Nat, a < b → a * w / kArtDim < b * w / kArtDim := by
    intro a b hab
    have hnext : (a + 1) * w ≤ b * w := Nat.mul_le_mul_right _ hab
    rw [Nat.succ_mul] at hnext
    have hgap : a * w / kArtDim + 1 ≤ (a * w + w) / kArtDim := by
      unfold kArtDim at *
      omega
    exact Nat.lt_of_lt_of_le hgap (Nat.div_le_div_right hnext)
  rcases Nat.lt_trichotomy first second with hlt | hsame | hlt
  · exact absurd heq (Nat.ne_of_lt (hstep _ _ hlt))
  · exact hsame
  · exact absurd heq (Nat.ne_of_gt (hstep _ _ hlt))

/-- A place in a row has that row and that column. -/
theorem row_column {w column : Nat} (h : column < w) (row : Nat) :
    (row * w + column) / w = row ∧ (row * w + column) % w = column := by
  have hpos : 0 < w := by omega
  rw [Nat.mul_comm row, Nat.mul_add_div hpos, Nat.div_eq_of_lt h, Nat.mul_add_mod,
    Nat.mod_eq_of_lt h]
  exact ⟨rfl, rfl⟩

/-- What is read of a picture lies in its row. -/
theorem column_lt {w x : Nat} (hw : 0 < w) (hx : x < kArtDim) : x * w / kArtDim < w := by
  have hdim : 0 < kArtDim := by decide
  rw [Nat.div_lt_iff_lt_mul hdim, Nat.mul_comm w]
  exact Nat.mul_lt_mul_of_pos_right hx hw

end Thumbnail

/-- A thumbnail can be made in place of exactly these pictures. -/
theorem thumbnail_iff (src : Size) :
    kArtDim * kArtDim ≤ src.w * src.h ∧ ReadInTime src.w src.h kArtDim kArtDim ↔
      FitsThumbnail src := by
  have hdim : 0 < kArtDim := by decide
  constructor
  · rintro ⟨hlarge, htime⟩
    by_cases hwide : kArtDim ≤ src.w
    · by_cases hhigh : kArtDim ≤ src.h
      · exact .inl ⟨hwide, hhigh⟩
      · refine .inr (.inr ⟨hwide, Nat.lt_of_not_le hhigh, hlarge, ?_⟩)
        intro oy hoy ox hox hearly
        have hplace : oy * kArtDim + ox < kArtDim * kArtDim := by
          have hrow : (oy + 1) * kArtDim ≤ kArtDim * kArtDim := Nat.mul_le_mul_right _ hoy
          rw [Nat.succ_mul] at hrow
          omega
        have hown := htime _ hplace
        rw [pixel_row hox] at hown
        have hsame := hown hearly
        obtain ⟨c, hc⟩ : ∃ c, c = oy * src.h / kArtDim * src.w + ox * src.w / kArtDim := ⟨_, rfl⟩
        rw [← hc] at hsame ⊢
        have hread : c / kArtDim * src.h / kArtDim * src.w + c % kArtDim * src.w / kArtDim =
            oy * src.h / kArtDim * src.w + ox * src.w / kArtDim := hsame.trans hc
        have hleft := row_column (column_lt src.w_pos (Nat.mod_lt c hdim))
          (c / kArtDim * src.h / kArtDim)
        have hright := row_column (column_lt src.w_pos hox) (oy * src.h / kArtDim)
        rw [hread] at hleft
        exact ⟨column_injective hwide (hleft.2.symm.trans hright.2), hleft.1.symm.trans hright.1⟩
    · by_cases hone : src.w = 1
      · rw [hone, Nat.one_mul] at hlarge
        exact .inr (.inl ⟨hone, hlarge⟩)
      · have hw := src.w_pos
        exact absurd htime (not_readInTime_narrow (by omega) (Nat.lt_of_not_le hwide))
  · rintro (⟨hwide, hhigh⟩ | ⟨hone, hlong⟩ | ⟨hwide, hlow, hlarge, hown⟩)
    · exact ⟨Nat.mul_le_mul hwide hhigh, readInTime_of_le hwide hhigh⟩
    · rw [hone, Nat.one_mul]
      exact ⟨hlong, readInTime_column hlong⟩
    · refine ⟨hlarge, ?_⟩
      intro k hk hearly
      have hrow : k / kArtDim < kArtDim := by
        rw [Nat.div_lt_iff_lt_mul hdim]
        exact hk
      have hcolumn : k % kArtDim < kArtDim := Nat.mod_lt _ hdim
      have hplace := hown (k / kArtDim) hrow (k % kArtDim) hcolumn
      rw [Nat.div_add_mod'] at hplace
      obtain ⟨hmod, hdiv⟩ := hplace hearly
      have hread : pixel src.w src.h kArtDim kArtDim k =
          k / kArtDim * src.h / kArtDim * src.w + k % kArtDim * src.w / kArtDim := rfl
      rw [hread, pixel, hmod, hdiv]

/-- Every picture of a size is scaled inside its buffer and right, exactly if
the size fits the layout. -/
theorem scalesInPlace_iff (layout : Layout) (src : Size) :
    ScalesInPlace layout src ↔ layout.Fits src := by
  have hresize : ScalesInPlace layout src ↔
      (layout.target src).2 * (layout.target src).1 ≤ src.w * src.h ∧
        ReadInTime src.w src.h (layout.target src).1 (layout.target src).2 :=
    resize_iff src.w_pos src.h_pos
  rw [hresize]
  cases layout with
  | side => exact thumbnail_iff src
  | top availW =>
    obtain ⟨hw, hh⟩ := target_top availW src
    refine iff_of_true ⟨?_, readInTime_of_le hw hh⟩ trivial
    rw [Nat.mul_comm]
    exact Nat.mul_le_mul hw hh

/-- A picture of one pixel is written far beyond its four bytes. -/
theorem notScalesInPlace_onePixel : ¬ ∀ layout src, ScalesInPlace layout src := by
  intro h
  have hfits := (thumbnail_iff ⟨1, 1, Nat.one_pos, Nat.one_pos⟩).mp
    ((resize_iff Nat.one_pos Nat.one_pos).mp (h .side ⟨1, 1, Nat.one_pos, Nat.one_pos⟩))
  rcases hfits with ⟨hwide, -⟩ | ⟨-, hlong⟩ | ⟨hwide, -⟩
  · exact absurd hwide (by decide)
  · exact absurd hlong (by decide)
  · exact absurd hwide (by decide)

end KdeConnectNx.ArtScaling
