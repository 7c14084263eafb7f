import Mathlib.Logic.Function.Basic
import KdeConnectNx.PairedFiles
import KdeConnectNx.PayloadTransfer

/-!
# Storage: files in chunks

Whole files are read and written in chunks that fit a buffer on the stack. The platform's
file service may fail at any call and may read fewer bytes than it is asked for. A service
whose calls succeed gives a file system as the store assumes it.
-/

namespace KdeConnectNx.ChunkedFiles

open PairedFiles PathNames
open PayloadTransfer (patch length_patch patch_patch patch_zero)

/-- The modes `fsFsOpenFile` is called with. -/
inductive OpenMode where
  | read
  /-- `FsOpenMode_Write | FsOpenMode_Append` -/
  | writeAppend
  deriving DecidableEq, Repr

/-- The calls of the platform's file service. None, or false, stands for a failing result. -/
class FileService (φ : Type) where
  /-- `FsFile` -/
  Handle : Type
  /-- The memory card is there (`fsdevGetDeviceFileSystem`). -/
  mounted : φ → Bool
  stat : String → φ → Bool × φ
  mkdir : List Char → φ → φ
  remove : String → φ → φ
  /-- `fsFsCreateFile`, its result not looked at. -/
  createFile : String → ℕ → φ → φ
  openFile : String → OpenMode → φ → Option Handle × φ
  getSize : Handle → φ → Option ℤ × φ
  setSize : Handle → ℕ → φ → Bool × φ
  /-- `fsFileRead` at an offset, of at most so many bytes. -/
  read : Handle → ℕ → ℕ → φ → Option (List UInt8) × φ
  /-- `fsFileWrite` at an offset. -/
  write : Handle → ℕ → List UInt8 → φ → Bool × φ
  flush : Handle → φ → φ
  close : Handle → φ → φ

open FileService (Handle)

/-- `kChunk` in `read_file`. -/
def kReadChunk : ℕ := 0x1000

/-- `kChunk` in `write_file`. -/
def kWriteChunk : ℕ := 0x400

section Loops

variable {φ : Type} [FileService φ]

/-- The loop of `read_file`: what was read and the offset at its end, none when a read
fails or returns nothing. -/
def readLoop (file : Handle φ) (out : List UInt8) (offset remaining : ℕ) (fs : φ) :
    Option (List UInt8 × ℕ) × φ :=
  if remaining = 0 then (some (out, offset), fs)
  else
    let toRead := min remaining kReadChunk
    let got := FileService.read file offset toRead fs
    match got.1 with
    | none => (none, got.2)
    | some bytes =>
      if bytes = [] then (none, got.2)
      else
        readLoop file (out ++ bytes) (offset + bytes.length) (remaining - bytes.length) got.2
termination_by remaining
decreasing_by
  have hbytes : 0 < bytes.length := List.length_pos_of_ne_nil ‹_›
  omega

/-- The loop of `write_file`: the offset at its end, none when a write fails. -/
def writeLoop (file : Handle φ) (offset : ℕ) (src : List UInt8) (remaining : ℕ) (fs : φ) :
    Option ℕ × φ :=
  if remaining = 0 then (some offset, fs)
  else
    let toWrite := min remaining kWriteChunk
    let written := FileService.write file offset (src.take toWrite) fs
    if written.1 then
      writeLoop file (offset + toWrite) (src.drop toWrite) (remaining - toWrite) written.2
    else (none, written.2)
termination_by remaining
decreasing_by
  have hchunk : 0 < kWriteChunk := by decide
  omega

/-- `read_file` from `fsFsOpenFile` on; a size query that fails counts as size zero. -/
def readOpened (path : String) (fs : φ) : List UInt8 × φ :=
  let opened := FileService.openFile path .read fs
  match opened.1 with
  | none => ([], opened.2)
  | some file =>
    let sized := FileService.getSize file opened.2
    let size := sized.1.getD 0
    if size ≤ 0 then ([], FileService.close file sized.2)
    else
      let run := readLoop file [] 0 size.toNat sized.2
      (run.1.elim [] Prod.fst, FileService.close file run.2)

/-- `write_file` from `fsFsCreateFile` on. -/
def writeOpened (path : String) (data : List UInt8) (fs : φ) : Bool × φ :=
  let opened := FileService.openFile path .writeAppend (FileService.createFile path data.length fs)
  match opened.1 with
  | none => (false, opened.2)
  | some file =>
    let sized := FileService.setSize file data.length opened.2
    if !sized.1 then (false, FileService.close file sized.2)
    else
      let run := writeLoop file 0 data data.length sized.2
      if run.1.isSome then (true, FileService.close file (FileService.flush file run.2))
      else (false, FileService.close file run.2)

/-- The calls of the store, the files read and written in chunks. -/
instance : FileSystem φ where
  mounted := FileService.mounted
  stat := FileService.stat
  read := readOpened
  mkdir := FileService.mkdir
  write := writeOpened
  remove := FileService.remove

end Loops

/-- What the calls of a file service do, by the content of the files. No law says that a
call succeeds: the laws on handles are about calls that did. -/
class LawfulFileService (φ : Type) extends FileService φ where
  contents : φ → Folder → Option (List UInt8)
  /-- The file a handle was opened for. -/
  fileOf : Handle → Folder
  contents_mkdir : ∀ dir fs, contents (mkdir dir fs) = contents fs
  /-- A file that is there is not created again. -/
  contents_createFile : ∀ path n fs, contents (createFile path n fs) = contents fs ∨
    contents fs (normalize path.toList) = none ∧ ∃ new,
      contents (createFile path n fs) =
        Function.update (contents fs) (normalize path.toList) (some new)
  contents_openFile : ∀ path mode fs, contents (openFile path mode fs).2 = contents fs
  openFile_some : ∀ path mode fs file, (openFile path mode fs).1 = some file →
    fileOf file = normalize path.toList ∧ (contents fs (fileOf file)).isSome
  contents_getSize : ∀ file fs, contents (getSize file fs).2 = contents fs
  getSize_some : ∀ file fs size content, (getSize file fs).1 = some size →
    contents fs (fileOf file) = some content → size = content.length
  /-- A file is cut, or extended by bytes nothing is known of. -/
  setSize_true : ∀ file n fs content, (setSize file n fs).1 = true →
    contents fs (fileOf file) = some content → ∃ blank,
      (content.take n ++ blank).length = n ∧ contents (setSize file n fs).2 =
        Function.update (contents fs) (fileOf file) (some (content.take n ++ blank))
  contents_read : ∀ file offset n fs, contents (read file offset n fs).2 = contents fs
  /-- A read gives what it is asked for or less, down to one byte. -/
  read_some : ∀ file offset n fs bytes content, (read file offset n fs).1 = some bytes →
    contents fs (fileOf file) = some content →
      ∃ k ≤ n, (0 < n → 0 < k) ∧ bytes = (content.drop offset).take k
  write_true : ∀ file offset bytes fs content, (write file offset bytes fs).1 = true →
    contents fs (fileOf file) = some content → offset + bytes.length ≤ content.length →
      contents (write file offset bytes fs).2 =
        Function.update (contents fs) (fileOf file) (some (patch content offset bytes))
  contents_flush : ∀ file fs, contents (flush file fs) = contents fs
  contents_close : ∀ file fs, contents (close file fs) = contents fs

section Writing

variable {φ : Type} [LawfulFileService φ]

open LawfulFileService

/-- The offset has moved by what remained. -/
theorem writeLoop_last {file : Handle φ} {offset remaining last : ℕ} {src : List UInt8} {fs : φ}
    (h : (writeLoop file offset src remaining fs).1 = some last) :
    last = offset + remaining := by
  fun_induction writeLoop file offset src remaining fs with
  | case1 offset src fs =>
    have hlast : offset = last := Option.some.inj h
    omega
  | case2 offset src remaining fs hmore toWrite written hok ih =>
    have hlast := ih h
    have hwrite : toWrite ≤ remaining := Nat.min_le_left _ _
    omega
  | case3 => cases h

/-- Where all that remains fits, its next chunk does. -/
theorem chunk_fits {src content : List UInt8} {offset remaining : ℕ}
    (hroom : offset + remaining ≤ content.length) :
    offset + (src.take (min remaining kWriteChunk)).length ≤ content.length := by
  rw [List.length_take]
  omega

/-- The chunks together are put where the first one was put. -/
theorem contents_writeLoop {file : Handle φ} {offset remaining : ℕ} {src content : List UInt8}
    {fs : φ} (hfile : contents fs (fileOf file) = some content) (hsrc : src.length = remaining)
    (hroom : offset + remaining ≤ content.length)
    (h : (writeLoop file offset src remaining fs).1.isSome) :
    contents (writeLoop file offset src remaining fs).2 =
      Function.update (contents fs) (fileOf file) (some (patch content offset src)) := by
  fun_induction writeLoop file offset src remaining fs generalizing content with
  | case1 offset src fs =>
    have hnone : src = [] := List.eq_nil_of_length_eq_zero hsrc
    have hsame : patch content offset [] = content := by
      rw [patch, List.append_nil, List.length_nil, Nat.add_zero, List.take_append_drop]
    rw [hnone, hsame, ← hfile, Function.update_eq_self]
  | @case2 offset src remaining fs hmore toWrite written hok ih =>
    have hwrite : toWrite ≤ remaining := Nat.min_le_left _ _
    have htake : (src.take toWrite).length = toWrite := by
      rw [List.length_take]
      omega
    have hfits : offset + (src.take toWrite).length ≤ content.length := chunk_fits hroom
    have hwritten : contents written.2 = Function.update (contents fs) (fileOf file)
        (some (patch content offset (src.take toWrite))) :=
      write_true file offset (src.take toWrite) fs content hok hfile hfits
    have hpatched : contents written.2 (fileOf file) =
        some (patch content offset (src.take toWrite)) := by
      rw [hwritten, Function.update_self]
    have hrest : (src.drop toWrite).length = remaining - toWrite := by
      rw [List.length_drop, hsrc]
    have hlength := length_patch hfits
    have hchunks := patch_patch hfits (src.drop toWrite)
    rw [htake, List.take_append_drop] at hchunks
    rw [ih hpatched hrest (by omega) h, hwritten, Function.update_idem, hchunks]
  | case3 => cases h

/-- A write that reports success has replaced the one file. -/
theorem contents_writeOpened {path : String} {data : List UInt8} {fs : φ}
    (h : (writeOpened path data fs).1 = true) : contents (writeOpened path data fs).2 =
      Function.update (contents fs) (normalize path.toList) (some data) := by
  have hcreated : ∀ value, Function.update
      (contents (FileService.createFile path data.length fs)) (normalize path.toList) value =
      Function.update (contents fs) (normalize path.toList) value := by
    intro value
    obtain hkept | ⟨-, new, hnew⟩ := contents_createFile path data.length fs
    · rw [hkept]
    · rw [hnew, Function.update_idem]
  have hopened := contents_openFile path .writeAppend (FileService.createFile path data.length fs)
  unfold writeOpened at h ⊢
  dsimp only at h ⊢
  cases hopen : (FileService.openFile path .writeAppend
      (FileService.createFile path data.length fs)).1 with
  | none =>
    rw [hopen] at h
    cases h
  | some file =>
    obtain ⟨hfile, hthere⟩ := openFile_some _ _ _ _ hopen
    obtain ⟨old, hold⟩ := Option.isSome_iff_exists.mp hthere
    rw [← hopened] at hold
    rw [hopen] at h
    dsimp only at h ⊢
    split at h
    · cases h
    · next hsized =>
      rw [Bool.not_eq_true', Bool.not_eq_false] at hsized
      obtain ⟨blank, hlength, hresized⟩ := setSize_true _ _ _ _ hsized hold
      split at h
      · next hrun =>
        have hwhole := contents_writeLoop (by rw [hresized, Function.update_self]) rfl
          (by omega) hrun
        rw [if_neg (by rw [hsized]; exact Bool.false_ne_true), if_pos hrun, contents_close,
          contents_flush, hwhole, hresized, Function.update_idem, hopened, hfile, hcreated,
          patch_zero hlength.le]
      · cases h

/-- A file written with success is replaced, and no other file is. -/
theorem contents_writeFile_of_true {path : String} {data : List UInt8} {fs : φ}
    (h : (writeFile path data fs).1 = true) : contents (writeFile path data fs).2 =
      Function.update (contents fs) (normalize path.toList) (some data) := by
  unfold writeFile at h ⊢
  dsimp only at h ⊢
  split at h
  · cases h
  · next hmounted =>
    split at h
    · cases h
    · next hshort =>
      have hwritten := contents_writeOpened h
      rw [view_makeParents contents contents_mkdir] at hwritten
      rw [if_neg hmounted, if_neg hshort]
      exact hwritten

/-- The checks of a write are those of a read. -/
theorem short_of_writeFile {path : String} {data : List UInt8} {fs : φ}
    (h : (writeFile path data fs).1 = true) : path.utf8ByteSize < fsMaxPath := by
  by_contra hshort
  have hlong : fsMaxPath ≤ path.utf8ByteSize := by omega
  unfold writeFile at h
  dsimp only at h
  rw [if_pos hlong, apply_ite Prod.fst, ite_self] at h
  cases h

end Writing

section Reading

variable {φ : Type} [LawfulFileService φ]

open LawfulFileService

/-- Reading changes no file. -/
theorem contents_readLoop (file : Handle φ) (out : List UInt8) (offset remaining : ℕ) (fs : φ) :
    contents (readLoop file out offset remaining fs).2 = contents fs := by
  fun_induction readLoop file out offset remaining fs with
  | case1 => rfl
  | case2 => exact contents_read _ _ _ _
  | case3 => exact contents_read _ _ _ _
  | case4 out offset remaining fs hmore toRead got bytes hgot hbytes ih =>
    rw [ih]
    exact contents_read _ _ _ _

theorem contents_readOpened (path : String) (fs : φ) :
    contents (readOpened path fs).2 = contents fs := by
  unfold readOpened
  dsimp only
  split
  · exact contents_openFile _ _ _
  · split
    · dsimp only
      rw [contents_close, contents_getSize, contents_openFile]
    · dsimp only
      rw [contents_close, contents_readLoop, contents_getSize, contents_openFile]

/-- In these states, and in those a read leads to from them, no call of a read fails. -/
structure ReadsSucceed (Serves : φ → Prop) : Prop where
  mounted : ∀ fs, Serves fs → FileService.mounted fs = true
  openFile : ∀ path fs, Serves fs → (contents fs (normalize path.toList)).isSome →
    (FileService.openFile path .read fs).1.isSome ∧ Serves (FileService.openFile path .read fs).2
  getSize : ∀ file fs, Serves fs → (contents fs (fileOf file)).isSome →
    (FileService.getSize file fs).1.isSome ∧ Serves (FileService.getSize file fs).2
  read : ∀ file offset n fs, Serves fs → (contents fs (fileOf file)).isSome →
    (FileService.read file offset n fs).1.isSome ∧ Serves (FileService.read file offset n fs).2

/-- Reads of any length, one after the other, give the whole content. -/
theorem readLoop_whole {Serves : φ → Prop} (hreads : ReadsSucceed Serves) {file : Handle φ}
    {out content : List UInt8} {offset remaining : ℕ} {fs : φ} (hserves : Serves fs)
    (hfile : contents fs (fileOf file) = some content) (hout : out = content.take offset)
    (hlength : offset + remaining = content.length) :
    (readLoop file out offset remaining fs).1 = some (content, content.length) := by
  fun_induction readLoop file out offset remaining fs with
  | case1 out offset fs =>
    have hend : offset = content.length := hlength
    rw [hout, hend, List.take_length]
  | case2 out offset remaining fs hmore toRead got hgot =>
    have hsome := (hreads.read file offset toRead fs hserves (by rw [hfile]; rfl)).1
    have hnone : (FileService.read file offset toRead fs).1 = none := hgot
    rw [hnone] at hsome
    cases hsome
  | case3 out offset remaining fs hmore toRead got hgot =>
    obtain ⟨k, -, hk, hbytes⟩ := read_some _ _ _ _ _ _ hgot hfile
    have hchunk : 0 < kReadChunk := by decide
    have hread : 0 < toRead := lt_min (Nat.pos_of_ne_zero hmore) hchunk
    have hempty := congrArg List.length hbytes
    have hpos := hk hread
    rw [List.length_nil, List.length_take, List.length_drop] at hempty
    omega
  | case4 out offset remaining fs hmore toRead got bytes hgot hbytes ih =>
    obtain ⟨k, hle, -, hpart⟩ := read_some _ _ _ _ _ _ hgot hfile
    have hread : toRead ≤ remaining := Nat.min_le_left _ _
    have hk : bytes.length = k := by
      rw [hpart, List.length_take, List.length_drop]
      omega
    have hsame : contents got.2 = contents fs := contents_read _ _ _ _
    refine ih ?_ ?_ ?_ ?_
    · exact (hreads.read file offset toRead fs hserves (by rw [hfile]; rfl)).2
    · rw [hsame, hfile]
    · rw [hout, hk, List.take_add, ← hpart]
    · omega

/-- A read no call of which fails gives the content of the file. -/
theorem readOpened_of_serves {Serves : φ → Prop} (hreads : ReadsSucceed Serves) {path : String}
    {content : List UInt8} {fs : φ} (hserves : Serves fs)
    (hfile : contents fs (normalize path.toList) = some content) :
    (readOpened path fs).1 = content := by
  obtain ⟨hopen, hopened⟩ := hreads.openFile path fs hserves (by rw [hfile]; rfl)
  obtain ⟨file, hfound⟩ := Option.isSome_iff_exists.mp hopen
  have hsame := contents_openFile path .read fs
  have hthere : contents (FileService.openFile path .read fs).2 (fileOf file) = some content := by
    rw [hsame, (openFile_some _ _ _ _ hfound).1, hfile]
  obtain ⟨hsize, hsized⟩ := hreads.getSize file _ hopened (by rw [hthere]; rfl)
  obtain ⟨size, hgot⟩ := Option.isSome_iff_exists.mp hsize
  have hlength : size = content.length := getSize_some _ _ _ _ hgot hthere
  unfold readOpened
  dsimp only
  rw [hfound]
  dsimp only
  rw [hgot, Option.getD_some, hlength]
  split
  · next hempty =>
    have hnone : content = [] := List.eq_nil_of_length_eq_zero (by omega)
    exact hnone.symm
  · dsimp only
    rw [← contents_getSize file] at hthere
    have hrun := readLoop_whole hreads hsized hthere rfl (Nat.zero_add content.length)
    rw [List.take_zero] at hrun
    rw [Int.toNat_natCast, hrun]
    rfl

/-- What was written with success is read back, whatever the file held before and however
short the reads are; both loops end with the offset at the length. -/
theorem readFile_writeFile {Serves : φ → Prop} (hreads : ReadsSucceed Serves) {path : String}
    {data : List UInt8} {fs : φ} (hwritten : (writeFile path data fs).1 = true)
    (hserves : Serves (writeFile path data fs).2) :
    (readFile path (writeFile path data fs).2).1 = data ∧
      (∀ (file : Handle φ) (fs' : φ), ∀ last ∈ (writeLoop file 0 data data.length fs').1,
        last = data.length) ∧
      ∀ (file : Handle φ) (fs' : φ), Serves fs' → contents fs' (fileOf file) = some data →
        (readLoop file [] 0 data.length fs').1 = some (data, data.length) := by
  refine ⟨?_, ?_, ?_⟩
  · have hfile : contents (writeFile path data fs).2 (normalize path.toList) = some data := by
      rw [contents_writeFile_of_true hwritten, Function.update_self]
    have hshort := short_of_writeFile hwritten
    have hmounted : FileSystem.mounted (writeFile path data fs).2 = true :=
      hreads.mounted _ hserves
    rw [readFile, hmounted, decide_eq_false (by omega)]
    exact readOpened_of_serves hreads hserves hfile
  · intro file fs' last hlast
    rw [writeLoop_last hlast, Nat.zero_add]
  · intro file fs' hserves' hfile
    exact readLoop_whole hreads hserves' hfile rfl (Nat.zero_add _)

end Reading

/-- A file service whose calls succeed on the files that are there. -/
class ReliableFileService (φ : Type) extends LawfulFileService φ where
  mounted_eq : ∀ fs, mounted fs = true
  stat_fst : ∀ path fs, (stat path fs).1 = (contents fs (normalize path.toList)).isSome
  contents_stat : ∀ path fs, contents (stat path fs).2 = contents fs
  contents_remove : ∀ path fs, contents (remove path fs) =
    Function.update (contents fs) (normalize path.toList) none
  createFile_isSome : ∀ path n fs,
    (contents (createFile path n fs) (normalize path.toList)).isSome
  openFile_isSome : ∀ path mode fs,
    (openFile path mode fs).1.isSome = (contents fs (normalize path.toList)).isSome
  getSize_isSome : ∀ file fs, (contents fs (fileOf file)).isSome → (getSize file fs).1.isSome
  setSize_fst : ∀ file n fs, (contents fs (fileOf file)).isSome → (setSize file n fs).1 = true
  read_isSome : ∀ file offset n fs, (contents fs (fileOf file)).isSome →
    (read file offset n fs).1.isSome
  write_fst : ∀ file offset bytes fs content, contents fs (fileOf file) = some content →
    offset + bytes.length ≤ content.length → (write file offset bytes fs).1 = true

section Reliable

variable {φ : Type} [ReliableFileService φ]

open LawfulFileService ReliableFileService

theorem readsSucceed : ReadsSucceed fun _ : φ => True where
  mounted := fun fs _ => mounted_eq fs
  openFile := fun path fs _ hthere => ⟨by rw [openFile_isSome, hthere], trivial⟩
  getSize := fun file fs _ hthere => ⟨getSize_isSome file fs hthere, trivial⟩
  read := fun file offset n fs _ hthere => ⟨read_isSome file offset n fs hthere, trivial⟩

/-- Inside the file no write fails. -/
theorem writeLoop_isSome {file : Handle φ} {offset remaining : ℕ} {src content : List UInt8}
    {fs : φ} (hfile : contents fs (fileOf file) = some content) (hsrc : src.length = remaining)
    (hroom : offset + remaining ≤ content.length) :
    (writeLoop file offset src remaining fs).1.isSome := by
  fun_induction writeLoop file offset src remaining fs generalizing content with
  | case1 => rfl
  | @case2 offset src remaining fs hmore toWrite written hok ih =>
    have hwrite : toWrite ≤ remaining := Nat.min_le_left _ _
    have hfits : offset + (src.take toWrite).length ≤ content.length := chunk_fits hroom
    have hwritten : contents written.2 (fileOf file) =
        some (patch content offset (src.take toWrite)) := by
      rw [write_true file offset (src.take toWrite) fs content hok hfile hfits,
        Function.update_self]
    have hlength := length_patch hfits
    have hrest : (src.drop toWrite).length = remaining - toWrite := by
      rw [List.length_drop, hsrc]
    exact ih hwritten hrest (by omega)
  | @case3 offset src remaining fs hmore toWrite written hfailed =>
    exact absurd (write_fst file offset (src.take toWrite) fs content hfile (chunk_fits hroom))
      hfailed

theorem writeOpened_fst (path : String) (data : List UInt8) (fs : φ) :
    (writeOpened path data fs).1 = true := by
  have hopen : (FileService.openFile path .writeAppend
      (FileService.createFile path data.length fs)).1.isSome := by
    rw [openFile_isSome, createFile_isSome]
  obtain ⟨file, hfound⟩ := Option.isSome_iff_exists.mp hopen
  obtain ⟨-, hthere⟩ := openFile_some _ _ _ _ hfound
  rw [← contents_openFile path .writeAppend] at hthere
  have hsized := setSize_fst file data.length _ hthere
  obtain ⟨old, hold⟩ := Option.isSome_iff_exists.mp hthere
  obtain ⟨blank, hlength, hresized⟩ := setSize_true _ _ _ _ hsized hold
  have hrun : (writeLoop file 0 data data.length (FileService.setSize file data.length
      (FileService.openFile path .writeAppend
        (FileService.createFile path data.length fs)).2).2).1.isSome :=
    writeLoop_isSome (by rw [hresized, Function.update_self]) rfl (by omega)
  unfold writeOpened
  dsimp only
  rw [hfound]
  dsimp only
  rw [if_neg (by rw [hsized]; exact Bool.false_ne_true), if_pos hrun]

/-- The store's assumptions on its file system hold of the chunked reads and writes. -/
instance : LawfulFileSystem φ where
  contents := LawfulFileService.contents
  mounted_eq := mounted_eq
  stat_fst := stat_fst
  contents_stat := contents_stat
  read_fst := by
    intro path fs
    cases hfile : contents fs (normalize path.toList) with
    | none =>
      have hopen := openFile_isSome path .read fs
      rw [hfile, Option.isSome_none, Option.isSome_eq_false_iff, Option.isNone_iff_eq_none] at hopen
      show (readOpened path fs).1 = []
      unfold readOpened
      dsimp only
      rw [hopen]
    | some content => exact readOpened_of_serves readsSucceed trivial hfile
  contents_read := contents_readOpened
  contents_mkdir := contents_mkdir
  contents_write := by
    intro path data fs
    funext file
    exact (congrFun (contents_writeOpened (writeOpened_fst path data fs)) file).trans
      (Function.update_apply _ _ _ _)
  contents_remove := by
    intro path fs
    funext file
    exact (congrFun (contents_remove path fs) file).trans (Function.update_apply _ _ _ _)

theorem writeFile_fst {path : String} (h : path.utf8ByteSize < fsMaxPath) (data : List UInt8)
    (fs : φ) : (writeFile path data fs).1 = true := by
  rw [writeFile_eq h]
  exact writeOpened_fst _ _ _

end Reliable

/-- A card whose reads are short: after `k` reads the next one gives at most `pace k` bytes,
but always one. -/
structure Card where
  files : Folder → Option (List UInt8)
  pace : ℕ → ℕ
  reads : ℕ := 0

def Card.put (card : Card) (file : Folder) (content : Option (List UInt8)) : Card :=
  { card with files := Function.update card.files file content }

/-- Change the content of a file that is there. -/
def Card.edit (card : Card) (file : Folder) (change : List UInt8 → List UInt8) : Bool × Card :=
  ((card.files file).isSome, card.put file ((card.files file).map change))

instance : FileService Card where
  Handle := Folder
  mounted := fun _ => true
  stat := fun path card => ((card.files (normalize path.toList)).isSome, card)
  mkdir := fun _ card => card
  remove := fun path card => card.put (normalize path.toList) none
  createFile := fun path n card =>
    card.put (normalize path.toList)
      (some ((card.files (normalize path.toList)).getD (List.replicate n 0)))
  openFile := fun path _ card =>
    ((card.files (normalize path.toList)).map fun _ => normalize path.toList, card)
  getSize := fun file card => ((card.files file).map fun content => content.length, card)
  setSize := fun file n card =>
    card.edit file fun content => content.take n ++ List.replicate (n - content.length) 0
  read := fun file offset n card =>
    ((card.files file).map fun content =>
      (content.drop offset).take (min n (max 1 (card.pace card.reads))),
      { card with reads := card.reads + 1 })
  write := fun file offset bytes card => card.edit file fun content => patch content offset bytes
  flush := fun _ card => card
  close := fun _ card => card

theorem Card.files_edit {card : Card} {file : Folder} {content : List UInt8}
    (h : card.files file = some content) (change : List UInt8 → List UInt8) :
    (card.edit file change).2.files = Function.update card.files file (some (change content)) := by
  rw [edit, h]
  rfl

instance : LawfulFileService Card where
  contents := Card.files
  fileOf := id
  contents_mkdir := fun _ _ => rfl
  contents_createFile := by
    intro path n card
    cases hfile : card.files (normalize path.toList) with
    | none => exact .inr ⟨rfl, _, rfl⟩
    | some content =>
      left
      have hsame : (card.files (normalize path.toList)).getD (List.replicate n 0) = content := by
        rw [hfile, Option.getD_some]
      show Function.update card.files _ (some ((card.files _).getD _)) = card.files
      rw [hsame, ← hfile, Function.update_eq_self]
  contents_openFile := fun _ _ _ => rfl
  openFile_some := by
    intro path mode card file h
    obtain ⟨content, hfile, hname⟩ := Option.map_eq_some_iff.mp h
    refine ⟨hname.symm, ?_⟩
    rw [id, ← hname, hfile]
    rfl
  contents_getSize := fun _ _ => rfl
  getSize_some := by
    intro file card size content h hfile
    obtain ⟨found, hfound, hsize⟩ := Option.map_eq_some_iff.mp h
    rw [← hsize, Option.some.inj (hfound.symm.trans hfile)]
  setSize_true := by
    intro file n card content _ hfile
    refine ⟨List.replicate (n - content.length) 0, ?_, Card.files_edit hfile _⟩
    rw [List.length_append, List.length_take, List.length_replicate]
    omega
  contents_read := fun _ _ _ _ => rfl
  read_some := by
    intro file offset n card bytes content h hfile
    obtain ⟨found, hfound, hbytes⟩ := Option.map_eq_some_iff.mp h
    refine ⟨min n (max 1 (card.pace card.reads)), Nat.min_le_left _ _, ?_, ?_⟩
    · intro hn
      omega
    · rw [← hbytes, Option.some.inj (hfound.symm.trans hfile)]
  write_true := fun _ _ _ _ _ _ hfile _ => Card.files_edit hfile _
  contents_flush := fun _ _ => rfl
  contents_close := fun _ _ => rfl

instance : ReliableFileService Card where
  mounted_eq := fun _ => rfl
  stat_fst := fun _ _ => rfl
  contents_stat := fun _ _ => rfl
  contents_remove := fun _ _ => rfl
  createFile_isSome := by
    intro path n card
    show (Function.update card.files _ (some _) _).isSome
    rw [Function.update_self, Option.isSome_some]
  openFile_isSome := fun _ _ _ => Option.isSome_map
  getSize_isSome := fun _ _ hfile => Option.isSome_map.trans hfile
  setSize_fst := fun _ _ _ hfile => hfile
  read_isSome := fun _ _ _ _ hfile => Option.isSome_map.trans hfile
  write_fst := fun _ _ _ _ _ hfile _ => Option.isSome_of_eq_some hfile

/-- Four chunks and a byte replace a longer file and come back in pieces of many lengths. -/
theorem readFile_writeFile_shorter :
    let path := "switch/kdeconnect/key.pem"
    let data : List UInt8 := List.replicate 4097 65
    let card : Card := { files := fun _ => some (List.replicate 9000 7), pace := fun k => k % 700 }
    (writeFile path data card).1 = true ∧ (readFile path (writeFile path data card).2).1 = data :=
  ⟨writeFile_fst (by decide) _ _,
    (readFile_writeFile readsSucceed (writeFile_fst (by decide) _ _) trivial).1⟩

end KdeConnectNx.ChunkedFiles
