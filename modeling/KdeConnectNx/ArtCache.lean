import KdeConnectNx.FailedDownloads
import KdeConnectNx.Recency

/-!
# The cache of album art

The files of album art are kept as long as their hashes are among the last that
were used. The list of these hashes is in memory, the files are on the card, and
three functions change both. No function looks at what a removal returned, so the
list is right in any case, and the files only as long as the removals succeed.
-/

namespace KdeConnectNx.ArtCache

open FailedDownloads Recency Runs

/-- `AlbumArt::kDir`, with the slash behind it. -/
def kDir : String := "/config/kdeconnect/album_art/"

/-- A name a file in a directory can have. -/
def IsFileName (name : String) : Prop := name ≠ "" ∧ name ≠ "." ∧ name ≠ ".." ∧ '/' ∉ name.toList

instance (name : String) : Decidable (IsFileName name) := inferInstanceAs (Decidable (_ ∧ _))

/-- `readdir` gives the file that is at this path. -/
def listed (path : String) : Bool :=
  kDir.toList.isPrefixOf path.toList &&
    decide (IsFileName (String.ofList (path.toList.drop kDir.toList.length)))

/-- `AlbumArt::clear_dir`: the list is empty also if `opendir` fails. -/
def clearDir (opened : Bool) (removes : String → Bool) (c : Cache) : Cache :=
  let cleared := { c with lru := [] }
  if !opened then cleared
  else
    { cleared with files := fun path => if listed path && removes path then none else c.files path }

/-- A call, with the results of the calls of `remove` and of `opendir` in it. -/
inductive Call where
  | lruTouch (hash : String) (removes : String → Bool)
  | downloadRaw (hash : String) (a : Arrival) (removes : String → Bool)
  | clearDir (opened : Bool) (removes : String → Bool)

def call (c : Cache) : Call → Cache
  | .lruTouch hash removes => c.lruTouch removes hash
  | .downloadRaw hash a removes => c.downloadRaw removes a hash
  | .clearDir opened removes => clearDir opened removes c

/-- `AlbumArt::download_raw` returns true. -/
def saves (c : Cache) (hash : String) (a : Arrival) : Bool :=
  a.ok (c.bytesAt (imgPath hash)) &&
    isImage (magic
      (if a.readBack then ((c.fetch (imgPath hash) a).bytesAt (imgPath hash)).getD [] else []))

/-- The hash a call uses. -/
def used (c : Cache) : Call → Option String
  | .lruTouch hash _ => if hash.isEmpty then none else some hash
  | .downloadRaw hash a _ => if saves c hash a && !hash.isEmpty then some hash else none
  | .clearDir _ _ => none

/-- The cache, with the hashes that were used since it was cleared. -/
structure Used where
  cache : Cache
  touched : List String := []

def step (u : Used) (e : Call) : Used where
  cache := call u.cache e
  touched :=
    match e with
    | .clearDir _ _ => []
    | _ => u.touched ++ (used u.cache e).toList

/-- The list has the last hashes that were used, each once, the last in front. -/
structure Listed (u : Used) : Prop where
  nodup : u.cache.lru.Nodup
  length : u.cache.lru.length ≤ kLruMax
  recent : u.cache.lru = (recent u.touched).take kLruMax

/-- If the file of this hash is there, the hash is in the list. -/
def Belongs (hash : String) (u : Used) : Prop :=
  (u.cache.files (imgPath hash)).isSome = true → hash ∈ u.cache.lru

/-- The file at this path is removed where the call comes to it. -/
def Call.removes : Call → String → Bool
  | .lruTouch _ removes => removes
  | .downloadRaw _ _ removes => removes
  | .clearDir opened removes => fun path => opened && removes path

/-- The hash whose file a call writes. -/
def Call.writes : Call → Option String
  | .downloadRaw hash _ _ => some hash
  | _ => none

def Call.clears : Call → Bool
  | .clearDir _ _ => true
  | _ => false

/-- The hash drops out of the list. -/
def DropsOut (hash : String) (u : Used) (e : Call) : Prop :=
  hash ∈ u.cache.lru ∧ hash ∉ (call u.cache e).lru

/-- The file of the hash is to be removed, and stays. -/
def Misses (hash : String) (u : Used) (e : Call) : Prop :=
  (e.clears = true ∨ DropsOut hash u e) ∧ e.removes (imgPath hash) = false

/-- A hash that drops out of the list has no file any more, unless it cannot be
removed, and no other file that belongs to the list is removed but the one that a
download writes. -/
def Evicts (u : Used) (e : Call) : Prop :=
  ∀ hash, IsFileName hash →
    (DropsOut hash u e → ¬ Misses hash u e → (call u.cache e).files (imgPath hash) = none) ∧
    (¬ DropsOut hash u e → Belongs hash u → e.writes ≠ some hash →
      (call u.cache e).files (imgPath hash) = u.cache.files (imgPath hash))

/-- A download that fails leaves no file that it made, nor one that is no image. -/
def LeavesNothing (u : Used) (e : Call) : Prop :=
  ∀ hash a removes, e = .downloadRaw hash a removes →
    Undone a.io a.size a.stream (u.cache.bytesAt (imgPath hash)) a.events ∧
      (a.ok (u.cache.bytesAt (imgPath hash)) = true → saves u.cache hash a = false →
        removes (imgPath hash) = true)

section Cache

variable {c : Cache} {hash : String} {removes : String → Bool}

/-- A path is the folder and the name. -/
theorem toList_imgPath (name : String) : (imgPath name).toList = kDir.toList ++ name.toList := by
  unfold imgPath kDir
  exact String.toList_append

/-- Different names have different paths. -/
theorem imgPath_injective {name other : String} (h : imgPath name = imgPath other) :
    name = other := by
  have hlist := congrArg String.toList h
  rw [toList_imgPath, toList_imgPath] at hlist
  exact String.toList_inj.mp (List.append_cancel_left hlist)

/-- A directory lists the names of files. -/
theorem listed_imgPath (name : String) : listed (imgPath name) = decide (IsFileName name) := by
  have hprefix : kDir.toList.isPrefixOf (kDir.toList ++ name.toList) = true :=
    List.isPrefixOf_iff_prefix.mpr (List.prefix_append _ _)
  rw [listed, toList_imgPath, hprefix, List.drop_left, String.ofList_toList, Bool.true_and]

/-- A removal that succeeds takes the file. -/
theorem files_remove_self (c : Cache) (path : String) :
    (c.remove removes path).files path = if removes path then none else c.files path := by
  unfold Cache.remove
  split
  · exact Function.update_self path _ _
  · rfl

/-- No other file. -/
theorem files_remove_other (c : Cache) {path other : String} (h : other ≠ path) :
    (c.remove removes path).files other = c.files other := by
  unfold Cache.remove
  split
  · exact Function.update_of_ne h _ _
  · rfl

/-- And leaves the list alone. -/
theorem lru_remove (c : Cache) (path : String) : (c.remove removes path).lru = c.lru := by
  unfold Cache.remove
  split <;> rfl

/-- The files that are left when some hashes are evicted. -/
theorem files_evict (hashes : List String) (c : Cache) (hash : String) :
    (hashes.foldl (fun c old => c.remove removes (imgPath old)) c).files (imgPath hash) =
      if hash ∈ hashes ∧ removes (imgPath hash) = true then none else c.files (imgPath hash) := by
  induction hashes generalizing c with
  | nil => exact (if_neg fun h => List.not_mem_nil h.1).symm
  | cons old hashes ih =>
    rw [List.foldl_cons, ih]
    by_cases hold : hash = old
    · subst hold
      rw [files_remove_self]
      by_cases hremoves : removes (imgPath hash) = true
      · have hfirst : hash ∈ hash :: hashes ∧ removes (imgPath hash) = true :=
          ⟨List.mem_cons_self, hremoves⟩
        rw [if_pos hremoves, if_pos hfirst, ite_self]
      · rw [if_neg hremoves, if_neg fun h => hremoves h.2, if_neg fun h => hremoves h.2]
    · have hpath : imgPath hash ≠ imgPath old := fun h => hold (imgPath_injective h)
      have hmem : hash ∈ old :: hashes ↔ hash ∈ hashes := by
        rw [List.mem_cons, or_iff_right hold]
      rw [files_remove_other _ hpath]
      exact if_congr (and_congr_left' hmem.symm) rfl rfl

/-- So do all removals of an eviction. -/
theorem lru_evict (hashes : List String) (c : Cache) :
    (hashes.foldl (fun c old => c.remove removes (imgPath old)) c).lru = c.lru := by
  induction hashes generalizing c with
  | nil => rfl
  | cons old hashes ih => rw [List.foldl_cons, ih, lru_remove]

/-- `lru_touch` in one piece: also where the hash is in front already. -/
theorem lruTouch_lru (hne : hash ≠ "") (hlength : c.lru.length ≤ kLruMax) :
    (c.lruTouch removes hash).lru = (touch hash c.lru).take kLruMax := by
  have hempty : ¬ hash.isEmpty = true := by
    rw [String.isEmpty_iff]
    exact hne
  unfold Cache.lruTouch
  rw [if_neg hempty]
  split
  · rename_i hhead
    obtain ⟨rest, hrest⟩ := List.head?_eq_some_iff.mp hhead
    rw [hrest] at hlength
    rw [hrest, touch_head, List.take_of_length_le hlength]
  · dsimp only
    rw [lru_evict]
    rfl

/-- Its files: only those of hashes that drop out go. -/
theorem lruTouch_files (hne : hash ≠ "") (hlength : c.lru.length ≤ kLruMax) (name : String) :
    (c.lruTouch removes hash).files (imgPath name) =
      if name ∈ (touch hash c.lru).drop kLruMax ∧ removes (imgPath name) = true then none
      else c.files (imgPath name) := by
  have hempty : ¬ hash.isEmpty = true := by
    rw [String.isEmpty_iff]
    exact hne
  unfold Cache.lruTouch
  rw [if_neg hempty]
  split
  · rename_i hhead
    obtain ⟨rest, hrest⟩ := List.head?_eq_some_iff.mp hhead
    have hnone : name ∉ (touch hash c.lru).drop kLruMax := by
      rw [hrest] at hlength
      rw [hrest, touch_head, List.drop_of_length_le hlength]
      exact List.not_mem_nil
    rw [if_neg fun h => hnone h.1]
  · dsimp only
    rw [files_evict]
    have hmem : name ∈ ((touch hash c.lru).drop kLruMax).reverse ↔
        name ∈ (touch hash c.lru).drop kLruMax := List.mem_reverse
    exact if_congr (and_congr_left' hmem) rfl rfl

/-- Without a hash it does nothing. -/
theorem lruTouch_empty (c : Cache) : c.lruTouch removes "" = c := rfl

/-- What `download_raw` does: it uses the hash, or removes what is no image, or
has no file to look at. -/
theorem downloadRaw_cases (removes : String → Bool) (c : Cache) (hash : String) (a : Arrival) :
    (saves c hash a = true ∧ a.ok (c.bytesAt (imgPath hash)) = true ∧
      c.downloadRaw removes a hash = (c.fetch (imgPath hash) a).lruTouch removes hash) ∨
    (saves c hash a = false ∧ a.ok (c.bytesAt (imgPath hash)) = true ∧
      c.downloadRaw removes a hash =
        (c.fetch (imgPath hash) a).remove removes (imgPath hash)) ∨
    (saves c hash a = false ∧ a.ok (c.bytesAt (imgPath hash)) = false ∧
      c.downloadRaw removes a hash = c.fetch (imgPath hash) a) := by
  unfold saves Cache.downloadRaw
  dsimp only
  cases hok : a.ok (c.bytesAt (imgPath hash)) with
  | false =>
    right; right
    exact ⟨rfl, rfl, rfl⟩
  | true =>
    rw [Bool.not_true, if_neg Bool.false_ne_true, Bool.true_and]
    cases himage : isImage (magic (if a.readBack then
        ((c.fetch (imgPath hash) a).bytesAt (imgPath hash)).getD [] else [])) with
    | true => exact .inl ⟨rfl, rfl, rfl⟩
    | false => exact .inr (.inl ⟨rfl, rfl, rfl⟩)

/-- A download that fails and leaves nothing leaves at most the file that was
there. -/
theorem fetch_failed {a : Arrival} {path : String} (hfailed : a.ok (c.bytesAt path) = false)
    (hundone : Undone a.io a.size a.stream (c.bytesAt path) a.events)
    (hfile : ((c.fetch path a).files path).isSome = true) : (c.files path).isSome = true := by
  have hend := (leavesNothing_finished a _).mp ((leavesNothing_iff _ _ _ _ _).mpr hundone)
  rw [fetch_self] at hfile
  cases hbytes : (a.download (c.bytesAt path)).file with
  | none =>
    rw [hbytes] at hfile
    cases hfile
  | some bytes =>
    rw [hbytes, Option.bind_some] at hfile
    split at hfile
    · rename_i hcreates
      rw [hend hcreates hfailed] at hbytes
      cases hbytes
    · exact hfile

/-- After `clear_dir` the files that could be removed are gone. -/
theorem clearDir_files {name : String} (hname : IsFileName name) (opened : Bool) (c : Cache) :
    (clearDir opened removes c).files (imgPath name) =
      if (opened && removes (imgPath name)) = true then none else c.files (imgPath name) := by
  unfold clearDir
  cases opened with
  | false => rfl
  | true =>
    rw [Bool.not_true, if_neg Bool.false_ne_true, Bool.true_and]
    dsimp only
    rw [listed_imgPath, decide_eq_true hname, Bool.true_and]

/-- After `clear_dir` the list is empty, opened or not. -/
theorem clearDir_lru (opened : Bool) (c : Cache) : (clearDir opened removes c).lru = [] := by
  unfold clearDir
  dsimp only
  split <;> rfl

end Cache

/-! ## Over all calls -/

section Steps

variable {u : Used} {c : Cache} {hash : String} {touched : List String} {removes : String → Bool}

/-- A call that uses a hash touches it. -/
theorem step_used {e : Call} (h : used u.cache e = some hash) :
    step u e = ⟨call u.cache e, u.touched ++ [hash]⟩ := by
  cases e with
  | clearDir => cases h
  | _ =>
    unfold step
    dsimp only
    rw [h]
    rfl

/-- One that does not touches none. -/
theorem step_unused {e : Call} (h : used u.cache e = none) (hclear : e.clears = false) :
    step u e = ⟨call u.cache e, u.touched⟩ := by
  cases e with
  | clearDir => cases hclear
  | _ =>
    unfold step
    dsimp only
    rw [h, Option.toList_none, List.append_nil]

/-- A touch uses its hash. -/
theorem used_lruTouch (hne : hash ≠ "") : used c (.lruTouch hash removes) = some hash := by
  refine if_neg ?_
  rw [String.isEmpty_iff]
  exact hne

/-- So does a download that is saved. -/
theorem used_saved {a : Arrival} (hsaves : saves c hash a = true) (hne : hash ≠ "") :
    used c (.downloadRaw hash a removes) = some hash := by
  refine if_pos ?_
  rw [hsaves, String.isEmpty_eq_false_iff.mpr hne]
  rfl

/-- One that is not does not. -/
theorem used_unsaved {a : Arrival} (h : saves c hash a = false ∨ hash = "") :
    used c (.downloadRaw hash a removes) = none := by
  refine if_neg ?_
  rcases h with hsaves | rfl
  · rw [hsaves]
    exact Bool.false_ne_true
  · rw [Bool.and_eq_true]
    rintro ⟨-, hempty⟩
    exact absurd hempty (by decide)

/-- What a call does to the list: it uses a hash, keeps the list or clears it. -/
theorem listed_step (h : Listed u) (e : Call) : Listed (step u e) := by
  -- one use, also of a hash whose file was just written
  have huse : ∀ {c : Cache} {hash : String} {removes : String → Bool}, hash ≠ "" →
      c.lru = u.cache.lru → Listed ⟨c.lruTouch removes hash, u.touched ++ [hash]⟩ := by
    intro c hash removes hne hlru
    have hlength : c.lru.length ≤ kLruMax := hlru ▸ h.length
    refine ⟨?_, ?_, ?_⟩
    · dsimp only
      rw [lruTouch_lru hne hlength, hlru]
      exact (nodup_touch h.nodup).sublist (List.take_sublist _ _)
    · dsimp only
      rw [lruTouch_lru hne hlength, List.length_take]
      exact Nat.min_le_left _ _
    · dsimp only
      rw [lruTouch_lru hne hlength, recent_concat, hlru, h.recent, take_touch]
  have hkeep : ∀ {c : Cache}, c.lru = u.cache.lru → Listed ⟨c, u.touched⟩ := by
    intro c hlru
    refine ⟨?_, ?_, ?_⟩
    · dsimp only
      rw [hlru]
      exact h.nodup
    · dsimp only
      rw [hlru]
      exact h.length
    · dsimp only
      rw [hlru]
      exact h.recent
  cases e with
  | lruTouch hash removes =>
    by_cases hne : hash = ""
    · subst hne
      rw [step_unused rfl rfl]
      exact hkeep rfl
    · rw [step_used (used_lruTouch hne)]
      exact huse hne rfl
  | downloadRaw hash a removes =>
    have hcall : call u.cache (.downloadRaw hash a removes) = u.cache.downloadRaw removes a hash :=
      rfl
    rcases downloadRaw_cases removes u.cache hash a with
      ⟨hsaves, -, heq⟩ | ⟨hsaves, -, heq⟩ | ⟨hsaves, -, heq⟩
    · by_cases hne : hash = ""
      · subst hne
        rw [step_unused (used_unsaved (.inr rfl)) rfl, hcall, heq]
        exact hkeep rfl
      · rw [step_used (used_saved hsaves hne), hcall, heq]
        exact huse hne rfl
    · rw [step_unused (used_unsaved (.inl hsaves)) rfl, hcall, heq]
      refine hkeep ?_
      rw [lru_remove]
      rfl
    · rw [step_unused (used_unsaved (.inl hsaves)) rfl, hcall, heq]
      exact hkeep rfl
  | clearDir opened removes =>
    have hstep : step u (.clearDir opened removes) = ⟨clearDir opened removes u.cache, []⟩ := rfl
    rw [hstep]
    refine ⟨?_, ?_, ?_⟩
    · dsimp only
      rw [clearDir_lru]
      exact List.nodup_nil
    · dsimp only
      rw [clearDir_lru]
      exact Nat.zero_le _
    · exact clearDir_lru opened u.cache

/-- What drops out by one use is behind the first ones. -/
theorem dropped_iff (hne : hash ≠ "") (hnodup : c.lru.Nodup) (hlength : c.lru.length ≤ kLruMax)
    (removes : String → Bool) (name : String) :
    (name ∈ c.lru ∧ name ∉ (c.lruTouch removes hash).lru) ↔
      name ∈ (touch hash c.lru).drop kLruMax := by
  have hwhole := List.take_append_drop kLruMax (touch hash c.lru)
  have hapart : ∀ x ∈ (touch hash c.lru).take kLruMax, ∀ y ∈ (touch hash c.lru).drop kLruMax,
      x ≠ y := by
    have hboth := nodup_touch (a := hash) hnodup
    rw [← hwhole] at hboth
    exact (List.nodup_append.mp hboth).2.2
  rw [lruTouch_lru hne hlength]
  constructor
  · rintro ⟨hmem, hgone⟩
    have hin : name ∈ touch hash c.lru := mem_touch.mpr (.inr hmem)
    rw [← hwhole, List.mem_append] at hin
    exact hin.resolve_left hgone
  · intro hdrop
    refine ⟨?_, fun htake => hapart name htake name hdrop rfl⟩
    have hin : name = hash ∨ name ∈ c.lru := mem_touch.mp (List.mem_of_mem_drop hdrop)
    refine hin.resolve_left ?_
    rintro rfl
    -- the hash that is used comes first
    refine hapart name ?_ name hdrop rfl
    rw [touch, kLruMax, List.take_succ_cons]
    exact List.mem_cons_self

/-- One use: files go with the hashes that drop out, where they can be removed. -/
theorem evicts_lruTouch (hne : hash ≠ "") (hnodup : c.lru.Nodup) (hlength : c.lru.length ≤ kLruMax)
    (removes : String → Bool) (name : String) :
    (name ∈ c.lru → name ∉ (c.lruTouch removes hash).lru → removes (imgPath name) = true →
      (c.lruTouch removes hash).files (imgPath name) = none) ∧
    (¬ (name ∈ c.lru ∧ name ∉ (c.lruTouch removes hash).lru) →
      (c.lruTouch removes hash).files (imgPath name) = c.files (imgPath name)) := by
  have hdropped := dropped_iff hne hnodup hlength removes name
  rw [lruTouch_files hne hlength]
  constructor
  · intro hmem hgone hremoves
    exact if_pos ⟨hdropped.mp ⟨hmem, hgone⟩, hremoves⟩
  · intro hkept
    exact if_neg fun hdrop => hkept (hdropped.mpr hdrop.1)

/-- A file that is still there is of a hash in the list, if the removals of it
succeeded. -/
theorem belongs_lruTouch (hne : hash ≠ "") (hnodup : c.lru.Nodup)
    (hlength : c.lru.length ≤ kLruMax) {name : String} (hname : name = hash ∨
      ((c.files (imgPath name)).isSome = true → name ∈ c.lru))
    (hmisses : name ∈ c.lru → name ∉ (c.lruTouch removes hash).lru → removes (imgPath name) = true)
    (hfile : ((c.lruTouch removes hash).files (imgPath name)).isSome = true) :
    name ∈ (c.lruTouch removes hash).lru := by
  obtain ⟨hgone, hkept⟩ := evicts_lruTouch hne hnodup hlength removes name
  by_contra hout
  by_cases hmem : name ∈ c.lru
  · rw [hgone hmem hout (hmisses hmem hout)] at hfile
    cases hfile
  · rcases hname with rfl | hbelongs
    · refine hout ?_
      rw [lruTouch_lru hne hlength, touch, kLruMax, List.take_succ_cons]
      exact List.mem_cons_self
    · rw [hkept fun h => hmem h.1] at hfile
      exact hmem (hbelongs hfile)

section Download

variable {a : Arrival} {name : String}

/-- A download writes no other file. -/
theorem fetch_name (a : Arrival) {name : String} (h : name ≠ hash) :
    (c.fetch (imgPath hash) a).files (imgPath name) = c.files (imgPath name) :=
  fetch_other a fun heq => h (imgPath_injective heq)

/-- Its own file is not there behind a download that failed, unless it was before. -/
theorem belongs_fetch (hfailed : a.ok (c.bytesAt (imgPath hash)) = false)
    (hundone : Undone a.io a.size a.stream (c.bytesAt (imgPath hash)) a.events)
    (hbelongs : (c.files (imgPath name)).isSome = true → name ∈ c.lru)
    (hfile : ((c.fetch (imgPath hash) a).files (imgPath name)).isSome = true) : name ∈ c.lru := by
  by_cases heq : name = hash
  · subst heq
    exact hbelongs (fetch_failed hfailed hundone hfile)
  · rw [fetch_name a heq] at hfile
    exact hbelongs hfile

/-- After a download every file still has its hash, unless one could not be removed. -/
theorem belongs_downloadRaw (h : Listed u) (hbelongs : Belongs name u) (hname : IsFileName name)
    (hleaves : LeavesNothing u (.downloadRaw hash a removes))
    (hmisses : ¬ Misses name u (.downloadRaw hash a removes)) :
    Belongs name (step u (.downloadRaw hash a removes)) := by
  intro hfile
  obtain ⟨hundone, hinvalid⟩ := hleaves hash a removes rfl
  have hremoves : name ∈ u.cache.lru → name ∉ (u.cache.downloadRaw removes a hash).lru →
      removes (imgPath name) = true := by
    intro hmem hout
    by_contra hno
    exact hmisses ⟨.inr ⟨hmem, hout⟩, eq_false_of_ne_true hno⟩
  have hcache : (step u (.downloadRaw hash a removes)).cache =
      u.cache.downloadRaw removes a hash := rfl
  rw [hcache] at hfile ⊢
  rcases downloadRaw_cases removes u.cache hash a with
    ⟨hsaves, -, heq⟩ | ⟨hsaves, hok, heq⟩ | ⟨-, hfailed, heq⟩
  · rw [heq] at hfile hremoves ⊢
    by_cases hne : hash = ""
    · subst hne
      rw [lruTouch_empty] at hfile ⊢
      rw [fetch_name a hname.1] at hfile
      exact hbelongs hfile
    · refine belongs_lruTouch (c := u.cache.fetch (imgPath hash) a) hne h.nodup h.length ?_ hremoves
        hfile
      by_cases hsame : name = hash
      · exact .inl hsame
      · rw [fetch_name a hsame]
        exact .inr hbelongs
  · rw [heq] at hfile ⊢
    rw [lru_remove]
    by_cases hsame : name = hash
    · subst hsame
      rw [files_remove_self, if_pos (hinvalid hok hsaves)] at hfile
      cases hfile
    · rw [files_remove_other _ fun hpath => hsame (imgPath_injective hpath),
        fetch_name a hsame] at hfile
      exact hbelongs hfile
  · rw [heq] at hfile ⊢
    exact belongs_fetch (c := u.cache) hfailed hundone hbelongs hfile

end Download

/-- The step lemma for a file: it belongs to the list as long as its removals
succeed. -/
theorem belongs_step (h : Listed u) (hname : IsFileName hash) (hbelongs : Belongs hash u) {e : Call}
    (hleaves : LeavesNothing u e) (hmisses : ¬ Misses hash u e) : Belongs hash (step u e) := by
  cases e with
  | lruTouch used removes =>
    intro hfile
    have hcache : (step u (.lruTouch used removes)).cache = u.cache.lruTouch removes used := rfl
    rw [hcache] at hfile ⊢
    by_cases hne : used = ""
    · subst hne
      exact hbelongs hfile
    · refine belongs_lruTouch hne h.nodup h.length (.inr hbelongs) ?_ hfile
      intro hmem hout
      by_contra hno
      exact hmisses ⟨.inr ⟨hmem, hout⟩, eq_false_of_ne_true hno⟩
  | downloadRaw used a removes => exact belongs_downloadRaw h hbelongs hname hleaves hmisses
  | clearDir opened removes =>
    intro hfile
    have hcache : (step u (.clearDir opened removes)).cache = clearDir opened removes u.cache := rfl
    have hremoves : (opened && removes (imgPath hash)) = true := by
      by_contra hno
      exact hmisses ⟨.inl rfl, eq_false_of_ne_true hno⟩
    rw [hcache, clearDir_files hname, if_pos hremoves] at hfile
    cases hfile

/-- A file it does not write has another name. -/
theorem writes_ne {a : Arrival} {name : String}
    (h : (Call.downloadRaw hash a removes).writes ≠ some name) : name ≠ hash := by
  rintro rfl
  exact h rfl

/-- The step lemma for the removals. -/
theorem evicts_step (h : Listed u) (e : Call) : Evicts u e := by
  intro name hname
  have hremoves : DropsOut name u e → ¬ Misses name u e → e.removes (imgPath name) = true := by
    intro hdrops hmisses
    by_contra hno
    exact hmisses ⟨.inr hdrops, eq_false_of_ne_true hno⟩
  cases e with
  | lruTouch hash removes =>
    by_cases hne : hash = ""
    · subst hne
      exact ⟨fun hdrops => absurd hdrops.1 hdrops.2, fun _ _ _ => rfl⟩
    · obtain ⟨hgone, hkept⟩ := evicts_lruTouch hne h.nodup h.length removes name
      exact ⟨fun hdrops hmisses => hgone hdrops.1 hdrops.2 (hremoves hdrops hmisses),
        fun hstays _ _ => hkept hstays⟩
  | downloadRaw hash a removes =>
    have hcall : call u.cache (.downloadRaw hash a removes) = u.cache.downloadRaw removes a hash :=
      rfl
    unfold DropsOut at hremoves ⊢
    rw [hcall] at hremoves ⊢
    rcases downloadRaw_cases removes u.cache hash a with
      ⟨-, -, heq⟩ | ⟨-, -, heq⟩ | ⟨-, -, heq⟩
    · by_cases hne : hash = ""
      · subst hne
        rw [heq, lruTouch_empty] at hremoves ⊢
        exact ⟨fun hdrops => absurd hdrops.1 hdrops.2, fun _ _ _ => fetch_name a hname.1⟩
      · rw [heq] at hremoves ⊢
        obtain ⟨hgone, hkept⟩ := evicts_lruTouch (c := u.cache.fetch (imgPath hash) a) hne
          h.nodup h.length removes name
        refine ⟨fun hdrops hmisses => hgone hdrops.1 hdrops.2 (hremoves hdrops hmisses), ?_⟩
        intro hstays _ hwrites
        rw [hkept hstays, fetch_name a (writes_ne hwrites)]
    · rw [heq, lru_remove]
      refine ⟨fun hdrops => absurd hdrops.1 hdrops.2, fun _ _ hwrites => ?_⟩
      have hsame : name ≠ hash := writes_ne hwrites
      rw [files_remove_other _ fun hpath => hsame (imgPath_injective hpath), fetch_name a hsame]
    · rw [heq]
      exact ⟨fun hdrops => absurd hdrops.1 hdrops.2,
        fun _ _ hwrites => fetch_name a (writes_ne hwrites)⟩
  | clearDir opened removes =>
    have hcall : call u.cache (.clearDir opened removes) = clearDir opened removes u.cache := rfl
    rw [hcall]
    constructor
    · intro hdrops hmisses
      rw [clearDir_files hname]
      exact if_pos (hremoves hdrops hmisses)
    · intro hstays hbelongs _
      have hout : name ∉ (call u.cache (.clearDir opened removes)).lru := by
        rw [hcall, clearDir_lru]
        exact List.not_mem_nil
      -- a file that belongs to the list and stays in it is not there at all
      have hnone : u.cache.files (imgPath name) = none := by
        by_contra hsome
        exact hstays ⟨hbelongs (Option.isSome_iff_ne_none.mpr hsome), hout⟩
      rw [clearDir_files hname, hnone, ite_self]

end Steps

/-- No removal of this file fails, and no download leaves anything that it should not. -/
def Removed (hash : String) (u : Used) (e : Call) : Prop :=
  LeavesNothing u e ∧ ¬ Misses hash u e

/-- From an empty list on, whatever is in the directory, over every sequence of calls:
the list is exactly the last ten hashes that were used, and the file of a hash goes
when the hash drops out, if it can be removed; and from a first `clear_dir` on a file
belongs to one of them as long as no removal of it fails. -/
theorem exactLru_run (files : String → Option Stored) (calls : List Call) :
    Always step Listed ⟨⟨files, []⟩, []⟩ calls ∧ EveryStep step Evicts ⟨⟨files, []⟩, []⟩ calls ∧
      ∀ hash opened removes rest, calls = .clearDir opened removes :: rest → IsFileName hash →
        EveryStep step (Removed hash) ⟨⟨files, []⟩, []⟩ calls →
          Always step (Belongs hash) (step ⟨⟨files, []⟩, []⟩ (.clearDir opened removes)) rest := by
  have hstart : Listed ⟨⟨files, []⟩, []⟩ := ⟨List.nodup_nil, Nat.zero_le _, rfl⟩
  have hlisted := always_of_step (P := Listed) (fun _ e h => listed_step h e) hstart calls
  refine ⟨hlisted, ?_, ?_⟩
  · rw [everyStep_iff]
    rintro before e after rfl
    exact evicts_step ((always_iff ..).mp hlisted before (List.prefix_append _ _)) e
  · rintro hash opened removes rest rfl hname ⟨⟨-, hmisses⟩, hrest⟩
    have hcleared : Belongs hash (step ⟨⟨files, []⟩, []⟩ (.clearDir opened removes)) := by
      intro hfile
      have hremoves : (opened && removes (imgPath hash)) = true := by
        by_contra hno
        exact hmisses ⟨.inl rfl, eq_false_of_ne_true hno⟩
      have hnone : ((step ⟨⟨files, []⟩, []⟩ (.clearDir opened removes)).cache.files
          (imgPath hash)) = none := by
        refine (clearDir_files hname opened _).trans ?_
        exact if_pos hremoves
      rw [hnone] at hfile
      cases hfile
    have hboth := always_of_everyStep (P := fun u => Listed u ∧ Belongs hash u)
      (fun _ e h hok => ⟨listed_step h.1 e, belongs_step h.1 hname h.2 hok.1 hok.2⟩)
      ⟨listed_step hstart _, hcleared⟩ hrest
    exact hboth.imp fun _ h => h.2

/-- Three bytes that begin a JPEG file, which come in one read. -/
def jpegArrival : Arrival where
  size := 3
  size_pos := by decide
  stream := [0xFF, 0xD8, 0xFF]
  events := [.turn, .read (.got 3), .write true, .turn, .turn, .turn]
  returns := fun _ => ⟨true, rfl⟩

/-- It is downloaded, used again after another hash, and cleared. -/
def jpegCalls : List Call :=
  [.clearDir true fun _ => true, .downloadRaw "00000000000000aa" jpegArrival fun _ => true,
    .lruTouch "00000000000000bb" fun _ => true, .lruTouch "00000000000000aa" fun _ => true,
    .clearDir true fun _ => true]

/-- Its file belongs to the list all the time, also before the last call. -/
theorem exactLru_jpeg :
    Always step Listed ⟨⟨fun _ => none, []⟩, []⟩ jpegCalls ∧
      EveryStep step Evicts ⟨⟨fun _ => none, []⟩, []⟩ jpegCalls ∧
      Always step (Belongs "00000000000000aa")
        (step ⟨⟨fun _ => none, []⟩, []⟩ (.clearDir true fun _ => true)) jpegCalls.tail := by
  obtain ⟨hlisted, hevicts, hbelongs⟩ := exactLru_run (fun _ => none) jpegCalls
  refine ⟨hlisted, hevicts, hbelongs _ _ _ _ rfl (by decide) ⟨?_, ?_, ?_, ?_, ?_, trivial⟩⟩
  all_goals
    refine ⟨?_, fun hmisses => absurd hmisses.2 Bool.true_eq_false.mp⟩
    intro hash a removes he
    cases he
  exact ⟨undone_of_ok rfl, fun _ _ => rfl⟩

/-- The last `opendir` fails. -/
def unopened : List Call :=
  [.clearDir true fun _ => true, .downloadRaw "00000000000000aa" jpegArrival fun _ => true,
    .clearDir false fun _ => true]

/-- No download leaves a file behind there. -/
theorem leavesNothing_unopened :
    EveryStep step LeavesNothing ⟨⟨fun _ => none, []⟩, []⟩ unopened := by
  refine ⟨?_, ?_, ?_, trivial⟩
  · intro hash a removes he
    cases he
  · intro hash a removes he
    cases he
    exact ⟨undone_of_ok rfl, fun _ _ => rfl⟩
  · intro hash a removes he
    cases he

/-- The picture stays behind without its hash. -/
theorem notExactLru_unopened :
    ¬ ∀ files opened removes rest,
      EveryStep step LeavesNothing ⟨⟨files, []⟩, []⟩ (.clearDir opened removes :: rest) →
        ∀ hash, IsFileName hash →
          Always step (Belongs hash) (step ⟨⟨files, []⟩, []⟩ (.clearDir opened removes)) rest := by
  intro h
  have hlast := (h _ _ _ _ leavesNothing_unopened "00000000000000aa" (by decide)).last
  have hlru : (run step ⟨⟨fun _ => none, []⟩, []⟩ unopened).cache.lru = [] := rfl
  have hmem : "00000000000000aa" ∈ (run step ⟨⟨fun _ => none, []⟩, []⟩ unopened).cache.lru :=
    hlast rfl
  rw [hlru] at hmem
  cases hmem

end KdeConnectNx.ArtCache
