import KdeConnectNx.PathNames
import KdeConnectNx.Plugins
import KdeConnectNx.PayloadTransfer

/-!
# Where received files are put

A shared file is named by its sender, an icon by the hash its sender gives it,
a notification by that hash and its id. Paths are sequences of bytes here, each
byte as the character of its value. Every call that creates, writes or removes a
file or makes a folder is listed with the folder the file is meant to be in.
-/

namespace KdeConnectNx.ReceivedFiles

open JsonText PathNames PacketBody PacketFormat PairedFiles Plugins PayloadTransfer Runs

/-- The bytes of a text. -/
def bytes (text : String) : List Char := (utf8 text.toList).map fun b => Char.ofNat b.toNat

/-- The folders files are meant for. -/
inductive Place where
  | root
  | assets
  | notifications
  deriving DecidableEq, Repr

def Place.dir : Place → List Char
  | .root => []
  | .assets => "/config/ultrahand/assets/notifications".toList
  | .notifications => "/config/ultrahand/notifications".toList

/-- A call on a file, or one that makes a folder. -/
structure Touch where
  kind : Access
  place : Place
  path : List Char
  deriving DecidableEq

/-- The memory card, as a path names it. -/
def cardName : List Char := "sdmc:".toList

/-- The folder is the one of the place, one it is in, or directly inside it. -/
def Near (place : Place) (folder : Folder) : Prop :=
  folder <+: normalize place.dir ∨ ∃ name, folder = normalize place.dir ++ [name]

/-- The path leads to a direct child of the folder it is meant for; a folder that
is made may also be that folder itself, or one it is in. -/
def Touch.Inside (t : Touch) : Prop :=
  if t.kind = .mkdir then Near t.place (normalize (t.path.drop cardName.length))
  else ∃ name, normalize t.path = normalize t.place.dir ++ [name]

/-- The calls of `make_directories`, one for each folder on the way. -/
def makeDirectories (place : Place) (path : List Char) : List Touch :=
  (directoryPrefixes (cardName ++ '/' :: path)).map fun dir => ⟨.mkdir, place, dir⟩

/-- The folders made for a file: those before the last slash of its path. -/
def makeParents (place : Place) (path : List Char) : List Touch :=
  (parentOf path).elim [] (makeDirectories place)

/-! ## Downloads -/

/-- The calls of `download_payload` as far as they decide which files it
touches. -/
structure Fetch where
  /-- The device has a session. -/
  session : Bool := true
  io : DownloadIo := {}
  /-- The whole payload was received and written. -/
  finished : Bool := true

/-- The path is copied into a buffer, and cut there; the folders are made from
the whole. -/
def pathBuf (filePath : List Char) : List Char := filePath.take (fsMaxPath - 1)

/-- The download gets to the file system. -/
def Fetch.connected (f : Fetch) : Bool :=
  f.session && (f.io.socket && f.io.address && f.io.connect && f.io.session && f.io.handshake &&
    f.io.mounted)

/-- `download_payload` returns true. -/
def Fetch.ok (f : Fetch) : Bool := f.connected && f.io.create && f.io.openFile && f.finished

def Fetch.files (f : Fetch) (place : Place) (filePath : List Char) : List Touch :=
  if !f.connected then []
  else
    makeParents place filePath ++
      ([⟨.delete, place, pathBuf filePath⟩, ⟨.write, place, pathBuf filePath⟩] ++
        if f.io.create && f.io.openFile && !f.finished then [⟨.delete, place, pathBuf filePath⟩]
        else [])

/-! ## Shared files -/

/-- What stands after the last slash or backslash of a file name. -/
def baseName (filename : List Char) : List Char :=
  (filename.reverse.takeWhile fun c => c != '/' && c != '\\').reverse

def receivedFile : List Char := "received_file".toList

/-- Where a shared file is saved. -/
def sharedPath (filename : List Char) : List Char :=
  '/' :: if (baseName filename).isEmpty then receivedFile else baseName filename

/-- The file branch of `SharePlugin::on_packet_received`. -/
def sharedFiles (f : Fetch) (np : NetworkPacket) : List Touch :=
  if np.type ≠ PacketTypes.shareRequest then []
  else if np.body.isStr "url" then []
  else if np.body.isStr "text" then []
  else if np.body.isStr "filename" && np.hasPayload then
    f.files .root (sharedPath (bytes (np.body.getStr "filename")))
  else []

/-- A slash and one ordinary name; a folder that is made is the root itself. -/
def Touch.RootFile (t : Touch) : Prop :=
  if t.kind = .mkdir then normalize (t.path.drop cardName.length) = []
  else ∃ name, t.path = '/' :: name ∧ '/' ∉ name ∧ '\\' ∉ name ∧
    name ≠ [] ∧ name ≠ ['.'] ∧ name ≠ ['.', '.']

/-! ## Notifications -/

def kAppId : List Char := "kdeconnect".toList

def sanitizeFilename (s : List Char) : List Char :=
  s.map fun c => if c.isAlphanum || c == '-' || c == '_' then c else '_'

def notifyPath (appId uid : List Char) : List Char :=
  Place.notifications.dir ++ '/' :: (appId ++ ('-' :: uid ++ ".notify".toList))

/-- The icon's app, when there is an icon and it is to be shown. -/
def appIdOf (showIcon : Bool) (iconHash : List Char) : List Char :=
  if showIcon && !iconHash.isEmpty then kAppId ++ '_' :: iconHash else kAppId

def iconPath (iconHash : List Char) : List Char :=
  Place.assets.dir ++ '/' :: ("kdeconnect_".toList ++ iconHash ++ ".rgba".toList)

def iconPathPng (iconHash : List Char) : List Char :=
  Place.assets.dir ++ '/' :: (".kdeconnect_".toList ++ iconHash ++ ".png".toList)

/-- The results of the calls in `write_app_icon`. -/
structure IconIo where
  /-- The icon is there already. -/
  stored : Bool := false
  fetch : Fetch := {}
  mounted : Bool := true
  /-- The decoder is made, the downloaded file opened, its header read and its
  size accepted. -/
  decodable : Bool := true
  create : Bool := true
  openOut : Bool := true
  /-- No row is broken. -/
  rows : Bool := true

/-- `write_app_icon`. -/
def iconFiles (io : IconIo) (iconHash : List Char) : List Touch :=
  let removePng : Touch := ⟨.delete, .assets, iconPathPng iconHash⟩
  let removeRgba : Touch := ⟨.delete, .assets, iconPath iconHash⟩
  if io.stored then []
  else
    io.fetch.files .assets (iconPathPng iconHash) ++
      if !io.fetch.ok then []
      else if !io.mounted || !io.decodable then [removePng]
      else
        [removeRgba, ⟨.write, .assets, iconPath iconHash⟩] ++
          if !io.create then [removePng]
          else if !io.openOut || !io.rows then [removeRgba, removePng]
          else [removePng]

/-- What `post_notification` looks at outside. -/
structure PostIo where
  mounted : Bool := true
  /-- The number of a notification without an id. -/
  counter : Nat := 0

/-- The file name of an id, a number where it has none. -/
def uidOf (io : PostIo) (id : String) : List Char :=
  if (sanitizeFilename (bytes id)).isEmpty then Nat.toDigits 10 io.counter
  else sanitizeFilename (bytes id)

/-- `post_notification`: the folders of the path are made, and nothing is
written under a path that is too long. -/
def postFiles (io : PostIo) (appId : List Char) (id : String) : List Touch :=
  if !io.mounted then []
  else
    makeParents .notifications (notifyPath appId (uidOf io id)) ++
      if fsMaxPath ≤ (notifyPath appId (uidOf io id)).length then []
      else [⟨.write, .notifications, notifyPath appId (uidOf io id)⟩]

/-- A notification comes again with an icon it was shown without. -/
def upgrades (now : Int64) (id time : String) (hasIcon : Bool)
    (posted : List (String × PostedEntry)) : Bool :=
  !id.isEmpty && (posted.lookup id).any fun entry =>
    entry.time == time && decide (now - entry.when < 2000000000) && !entry.hasIcon && hasIcon

/-- What a notification packet meets. -/
structure NoticeIo where
  icon : IconIo := {}
  showIcon : Bool := true
  post : PostIo := {}

/-- The files of `NotificationPlugin::on_packet_received`. -/
def noticeFiles (env : PluginEnv) (io : NoticeIo) (np : NetworkPacket) (p : NotificationPlugin) :
    List Touch :=
  let body := np.body
  let id := body.valueStr "id" ""
  let icon := NotificationPlugin.iconOf env.mapBegin (body.valueStr "appName" "Unknown")
    (body.valueStr "payloadHash" "") p.appIconHash
  if np.type ≠ PacketTypes.notification then []
  else if body.valueBool "isCancel" false then []
  else
    (if np.hasPayload && !icon.1.isEmpty then iconFiles io.icon (bytes icon.1) else []) ++
      (if upgrades env.steady id (body.valueStr "time" "") (!icon.1.isEmpty) p.postedIds &&
          !(sanitizeFilename (bytes id)).isEmpty then
        [⟨.delete, .notifications, notifyPath kAppId (sanitizeFilename (bytes id))⟩]
      else []) ++
      (NotificationPlugin.receive env body p).2.elim [] fun notice =>
        postFiles io.post (appIdOf io.showIcon (bytes notice.iconHash)) notice.id

/-- The apps the client names in notices of its own. -/
inductive OwnApp where
  | kdeconnect
  | share
  deriving DecidableEq, Repr

def OwnApp.id : OwnApp → List Char
  | .kdeconnect => kAppId
  | .share => "kdeconnect_share".toList

inductive Event where
  /-- A packet for the plugin. -/
  | packet (env : PluginEnv) (io : NoticeIo) (np : NetworkPacket)
  /-- A notice of another plugin. -/
  | notice (io : PostIo) (app : OwnApp) (id : String)

def step (p : NotificationPlugin) : Event → NotificationPlugin
  | .packet env _ np => (p.onPacketReceived env np).1
  | .notice _ _ _ => p

def files (p : NotificationPlugin) : Event → List Touch
  | .packet env io np => noticeFiles env io np p
  | .notice io app id => postFiles io app.id id

/-! ## Where the paths lead -/

/-- The part of a name before its last slash leads from a folder back to it. -/
def LeadsBack (place : Place) (name : List Char) : Prop :=
  resolve (normalize place.dir) (leading name) = normalize place.dir

instance (place : Place) (name : List Char) : Decidable (LeadsBack place name) :=
  inferInstanceAs (Decidable (_ = _))

/-- Whichever of its slashes the name is cut at, what stands before leads from
the folder to that folder, to one it is in, or to one directly inside it. -/
def Walks (place : Place) (name : List Char) : Prop :=
  ∀ way, way <+: leading name → Near place (resolve (normalize place.dir) way)

theorem inside_iff {ending : List Char} (hslash : '/' ∉ ending) (hlong : 2 < ending.length)
    {kind : Access} (hkind : kind ≠ .mkdir) (place : Place) (name : List Char) :
    Touch.Inside ⟨kind, place, place.dir ++ '/' :: (name ++ ending)⟩ ↔ LeadsBack place name := by
  have hpath := normalize_inside hslash hlong place.dir name
  rw [Touch.Inside, if_neg hkind]
  constructor
  · rintro ⟨child, hchild⟩
    exact (List.append_inj' (hpath.symm.trans hchild) rfl).1
  · intro h
    have hfolder : resolve (normalize place.dir) (leading name) = normalize place.dir := h
    rw [hfolder] at hpath
    exact ⟨_, hpath⟩

/-! ### The folders that are made -/

/-- A path is made into folders by its components: each call names the first of
them, -/
theorem components_of_mem {tmp dir : List Char} (h : dir ∈ directoryPrefixes tmp) :
    components dir <+: components tmp := by
  rcases List.mem_append.mp h with hm | hm
  · obtain ⟨i, hi, rfl⟩ := List.mem_map.mp hm
    obtain ⟨-, hslash⟩ := List.mem_filter.mp hi
    rw [decide_eq_true_eq] at hslash
    obtain ⟨hlt, hchar⟩ := List.getElem?_eq_some_iff.mp hslash.2
    have hsplit : tmp = tmp.take i ++ '/' :: tmp.drop (i + 1) := by
      rw [← hchar, List.getElem_cons_drop, List.take_append_drop]
    exact ⟨components (tmp.drop (i + 1)), by rw [← components_append_slash, ← hsplit]⟩
  · rw [List.mem_singleton.mp hm]

/-- and there is a call for each number of them. -/
theorem exists_mem_of_components {tmp : List Char} {way : List Name}
    (h : cardName :: way <+: components tmp) :
    ∃ dir ∈ directoryPrefixes tmp, components dir = cardName :: way := by
  obtain ⟨rest, hrest⟩ := h
  by_cases hend : rest = []
  · refine ⟨tmp, List.mem_append_right _ (List.mem_singleton_self tmp), ?_⟩
    rw [← hrest, hend, List.append_nil]
  · obtain ⟨before, after, rfl, hbefore, -⟩ :=
      exists_slash_of_components hrest.symm (List.cons_ne_nil _ _) hend
    refine ⟨before, List.mem_append_left _ (List.mem_map.mpr ⟨before.length, ?_, ?_⟩), hbefore⟩
    · rw [List.mem_filter, List.mem_range, decide_eq_true_eq]
      refine ⟨by simp, ?_, by simp⟩
      rw [Nat.one_le_iff_ne_zero, Ne, List.length_eq_zero_iff]
      rintro rfl
      exact absurd hbefore (by simp [components, cardName])
    · exact List.take_left

/-- Where a folder is that is named with the card before it. -/
theorem normalize_onCard {dir : List Char} {way : List Name}
    (h : components dir = cardName :: way) :
    normalize (dir.drop cardName.length) = resolve [] way := by
  cases way with
  | nil =>
    have hdir : dir = cardName := by
      have hfree := noSlash_of_components h
      have hone : components dir = [dir] := List.splitOn_eq_singleton hfree
      exact (List.cons.inj (hone.symm.trans h)).1
    rw [hdir, List.drop_length]
    rfl
  | cons name way =>
    have hsplit : components dir = [cardName] ++ (name :: way) := h
    obtain ⟨before, after, rfl, hbefore, hafter⟩ :=
      exists_slash_of_components hsplit (List.cons_ne_nil _ _) (List.cons_ne_nil _ _)
    have hcard : before = cardName := by
      have hone : components before = [before] :=
        List.splitOn_eq_singleton (noSlash_of_components hbefore)
      exact (List.cons.inj (hone.symm.trans hbefore)).1
    rw [hcard, List.drop_left, ← hafter]
    exact normalize_append_slash [] after

/-- The folders above that of the place, and that one. -/
theorem near_dir (place : Place) {way : List Name} (h : way <+: components place.dir) :
    Near place (resolve [] way) := by
  left
  obtain ⟨rest, hrest⟩ := h
  have hall : ∀ first ∈ (components place.dir).inits,
      (resolve [] first).isPrefixOf (normalize place.dir) = true := by
    cases place <;> decide
  exact List.isPrefixOf_iff_prefix.mp (hall way ((List.mem_inits _ _).mpr ⟨rest, hrest⟩))

/-- The folders made for a file are where they belong exactly if its name walks
nowhere else. -/
theorem inside_makeParents (place : Place) (name : List Char) :
    (∀ t ∈ makeParents place (place.dir ++ '/' :: name), t.Inside) ↔ Walks place name := by
  obtain ⟨parent, hparent, hcut⟩ := parentOf_inside place.dir name
  have hcomponents : components (cardName ++ '/' :: parent) =
      cardName :: (components place.dir ++ leading name) := by
    rw [components_append_slash, hcut]
    rfl
  have hstart : components place.dir ≠ [] := List.splitOn_ne_nil '/' place.dir
  have hmade : (∀ t ∈ makeParents place (place.dir ++ '/' :: name), t.Inside) ↔
      ∀ way, way <+: components place.dir ++ leading name → Near place (resolve [] way) := by
    rw [makeParents, hparent]
    constructor
    · intro h way hway
      have hfull : cardName :: way <+: components (cardName ++ '/' :: parent) := by
        rw [hcomponents]
        exact List.cons_prefix_cons.mpr ⟨rfl, hway⟩
      obtain ⟨dir, hdir, hname⟩ := exists_mem_of_components hfull
      have hinside := h ⟨.mkdir, place, dir⟩ (List.mem_map.mpr ⟨dir, hdir, rfl⟩)
      rw [Touch.Inside, if_pos rfl, normalize_onCard hname] at hinside
      exact hinside
    · intro h t ht
      obtain ⟨dir, hdir, rfl⟩ := List.mem_map.mp ht
      have hprefix := components_of_mem hdir
      rw [hcomponents] at hprefix
      obtain ⟨first, way, hname⟩ := List.exists_cons_of_ne_nil (List.splitOn_ne_nil '/' dir)
      have hdircut : components dir = first :: way := hname
      rw [hdircut] at hprefix
      obtain ⟨rfl, hway⟩ := List.cons_prefix_cons.mp hprefix
      rw [Touch.Inside, if_pos rfl, normalize_onCard hdircut]
      exact h way hway
  rw [hmade]
  constructor
  · intro h way hway
    have hnear := h (components place.dir ++ way) (List.prefix_append_right_inj _ |>.mpr hway)
    rw [resolve_append] at hnear
    exact hnear
  · intro h way hway
    rcases List.prefix_or_prefix_of_prefix hway (List.prefix_append _ _) with hup | hdown
    · exact near_dir place hup
    · obtain ⟨rest, rfl⟩ := hdown
      rw [resolve_append]
      exact h rest ((List.prefix_append_right_inj _).mp hway)

theorem walks_of_noSlash {name : List Char} (h : '/' ∉ name) (place : Place) :
    Walks place name := by
  intro way hway
  rw [leading_of_noSlash h] at hway
  rw [List.prefix_nil.mp hway]
  exact .inl List.prefix_rfl

theorem leadsBack_of_noSlash {name : List Char} (h : '/' ∉ name) (place : Place) :
    LeadsBack place name := by
  rw [LeadsBack, leading_of_noSlash h]
  rfl

/-- What stands before the hash does not matter. -/
theorem LeadsBack.restart {first second name : List Char} (hfirst : '/' ∉ first)
    (hsecond : '/' ∉ second) (hlong : 2 < first.length) (hlong' : 2 < second.length)
    {place : Place} (h : LeadsBack place (first ++ name)) :
    LeadsBack place (second ++ name) := by
  obtain ⟨head, more, hname⟩ := List.exists_cons_of_ne_nil (List.splitOn_ne_nil '/' name)
  have hcut : components name = head :: more := hname
  have hlead : ∀ start : List Char, '/' ∉ start →
      leading (start ++ name) = ((start ++ head) :: more).dropLast := by
    intro start hstart
    rw [leading, components_append_start hstart, hcut]
    rfl
  unfold LeadsBack at h ⊢
  rw [hlead first hfirst] at h
  rw [hlead second hsecond]
  cases more with
  | nil => exact h
  | cons next more =>
    rw [List.dropLast_cons_cons] at h ⊢
    refine resolve_rename ?_ ?_ h
    · rw [List.length_append]
      omega
    · rw [List.length_append]
      omega

/-- The beginning of the names of icons, -/
def iconStart : List Char := "kdeconnect_".toList

/-- and of the files they are downloaded to. -/
def pngStart : List Char := ".kdeconnect_".toList

theorem inside_iconPath {kind : Access} (hkind : kind ≠ .mkdir) (hash : List Char) :
    Touch.Inside ⟨kind, .assets, iconPath hash⟩ ↔ LeadsBack .assets (iconStart ++ hash) :=
  inside_iff (by decide) (by decide) hkind .assets _

theorem inside_iconPathPng {kind : Access} (hkind : kind ≠ .mkdir) (hash : List Char) :
    Touch.Inside ⟨kind, .assets, iconPathPng hash⟩ ↔ LeadsBack .assets (iconStart ++ hash) := by
  have hpng : Touch.Inside ⟨kind, .assets, iconPathPng hash⟩ ↔
      LeadsBack .assets (pngStart ++ hash) :=
    inside_iff (by decide) (by decide) hkind .assets _
  rw [hpng]
  constructor
  · exact LeadsBack.restart (by decide) (by decide) (by decide) (by decide)
  · exact LeadsBack.restart (by decide) (by decide) (by decide) (by decide)

/-- What stands behind an app in the name of a notification. -/
theorem slash_not_mem_ending {uid : List Char} (h : '/' ∉ uid) :
    '/' ∉ '-' :: uid ++ ".notify".toList := by
  have hending : '/' ∉ ".notify".toList := by decide
  rw [List.mem_append, List.mem_cons, not_or, not_or]
  exact ⟨⟨by decide, h⟩, hending⟩

theorem inside_notifyPath {uid : List Char} (h : '/' ∉ uid) {kind : Access} (hkind : kind ≠ .mkdir)
    (appId : List Char) :
    Touch.Inside ⟨kind, .notifications, notifyPath appId uid⟩ ↔
      LeadsBack .notifications appId := by
  refine inside_iff (slash_not_mem_ending h) ?_ hkind .notifications appId
  simp only [List.length_cons, List.length_append]
  have hending : ".notify".toList.length = 7 := by decide
  omega

/-- The folders made for an icon, -/
theorem inside_parentsPng (hash : List Char) :
    (∀ t ∈ makeParents .assets (iconPathPng hash), t.Inside) ↔
      Walks .assets (pngStart ++ hash) := by
  have hslash : '/' ∉ ".png".toList := by decide
  refine (inside_makeParents .assets (pngStart ++ hash ++ ".png".toList)).trans ?_
  rw [Walks, leading_append_end hslash]
  rfl

/-- and for a notification. -/
theorem inside_parentsNotify {uid : List Char} (h : '/' ∉ uid) (appId : List Char) :
    (∀ t ∈ makeParents .notifications (notifyPath appId uid), t.Inside) ↔
      Walks .notifications appId := by
  refine (inside_makeParents .notifications (appId ++ ('-' :: uid ++ ".notify".toList))).trans ?_
  rw [Walks, leading_append_end (slash_not_mem_ending h)]
  rfl

/-- The name of a downloaded icon as far as the buffer takes it. -/
def cutName (hash : List Char) : List Char := pngStart ++ (hash ++ ".png".toList).take 717

/-- The name ends in an ordinary component and what stands before leads back; or
it ends in no component or a dot, behind what leads to a direct child. -/
def NamesChild (place : Place) (name : List Char) : Prop :=
  if final name = [] ∨ final name = ['.'] then
    ∃ child, resolve (normalize place.dir) (leading name) = normalize place.dir ++ [child]
  else final name ≠ ['.', '.'] ∧ LeadsBack place name

/-- What has to hold of a hash for its files and folders to be where they belong:
put behind the beginning of an icon's name it walks nowhere else and leads back
to the folder of the icons; what is left of a name too long for the buffer names
a child of it; and with the same beginning it walks nowhere else from the folder
of the notifications, and leads back there if a notification can be written. -/
structure HashStays (hash : List Char) : Prop where
  walks : Walks .assets (pngStart ++ hash)
  assets : LeadsBack .assets (iconStart ++ hash)
  cut : fsMaxPath ≤ hash.length + 55 → NamesChild .assets (cutName hash)
  around : Walks .notifications (iconStart ++ hash)
  notifications : hash.length + 52 < fsMaxPath → LeadsBack .notifications (iconStart ++ hash)

theorem length_iconPathPng (hash : List Char) : (iconPathPng hash).length = hash.length + 55 := by
  have hdir : Place.assets.dir.length = 38 := by decide
  have hstart : ".kdeconnect_".toList.length = 12 := by decide
  have hending : ".png".toList.length = 4 := by decide
  simp only [iconPathPng, List.length_append, List.length_cons, hdir]
  omega

/-- The buffer takes the folder, the slash and the beginning of the name. -/
theorem pathBuf_iconPathPng (hash : List Char) :
    pathBuf (iconPathPng hash) = Place.assets.dir ++ '/' :: cutName hash := by
  have hdir : Place.assets.dir.length = 38 := by decide
  have hstart : pngStart.length = 12 := by decide
  have hmax : fsMaxPath - 1 = 38 + (12 + 717 + 1) := by decide
  have hname : (pngStart ++ hash ++ ".png".toList).take (12 + 717) = cutName hash := by
    rw [List.append_assoc, ← hstart, List.take_length_add_append, cutName]
  rw [pathBuf, iconPathPng, hmax, ← hdir, List.take_length_add_append, List.take_succ_cons,
    ← hname]
  rfl

/-- A cut path names a child exactly if what is left of the name does. -/
theorem inside_cut {hash : List Char} (h : Walks .assets (pngStart ++ hash)) {kind : Access}
    (hkind : kind ≠ .mkdir) :
    Touch.Inside ⟨kind, .assets, pathBuf (iconPathPng hash)⟩ ↔
      NamesChild .assets (cutName hash) := by
  have hpath : normalize (pathBuf (iconPathPng hash)) =
      enter (resolve (normalize Place.assets.dir) (leading (cutName hash)))
        (final (cutName hash)) := by
    rw [pathBuf_iconPathPng, normalize_append_slash, components_eq (cutName hash), resolve_append]
    rfl
  rw [Touch.Inside, if_neg hkind, hpath, NamesChild, enter]
  split
  · exact Iff.rfl
  · split
    · rename_i hdots
      refine iff_of_false ?_ fun h => h.1 hdots
      rintro ⟨child, hchild⟩
      -- one level above a folder near that of the icons is no child of it
      obtain ⟨rest, hrest⟩ : cutName hash <+: pngStart ++ hash ++ ".png".toList := by
        rw [List.append_assoc]
        exact (List.prefix_append_right_inj _).mpr (List.take_prefix _ _)
      have hway : leading (cutName hash) <+: leading (pngStart ++ hash) := by
        have hlead := leading_prefix (cutName hash) rest
        rw [hrest, leading_append_end (by decide)] at hlead
        exact hlead
      have hlength := congrArg List.length hchild
      simp only [List.length_dropLast, List.length_append, List.length_singleton] at hlength
      rcases h _ hway with hup | ⟨name, hdown⟩
      · have hle := hup.length_le
        omega
      · rw [hdown, List.length_append, List.length_singleton] at hlength
        omega
    · rename_i hdots
      constructor
      · rintro ⟨child, hchild⟩
        exact ⟨hdots, (List.append_inj' hchild rfl).1⟩
      · rintro ⟨-, hback⟩
        have hfolder : resolve (normalize Place.assets.dir) (leading (cutName hash)) =
            normalize Place.assets.dir := hback
        exact ⟨final (cutName hash), by rw [hfolder]⟩

/-- A hash without a slash, however long. -/
theorem hashStays_of_noSlash {hash : List Char} (h : '/' ∉ hash) : HashStays hash := by
  have hicon : '/' ∉ iconStart ++ hash := by
    rw [List.mem_append, not_or]
    exact ⟨by decide, h⟩
  have hpng : '/' ∉ pngStart ++ hash := by
    rw [List.mem_append, not_or]
    exact ⟨by decide, h⟩
  refine ⟨walks_of_noSlash hpng _, leadsBack_of_noSlash hicon _, fun _ => ?_,
    walks_of_noSlash hicon _, fun _ => leadsBack_of_noSlash hicon _⟩
  have hcut : '/' ∉ cutName hash := by
    rw [cutName, List.mem_append, not_or]
    refine ⟨by decide, fun hm => ?_⟩
    rcases List.mem_append.mp (List.mem_of_mem_take hm) with hm | hm
    · exact h hm
    · exact absurd hm (by decide)
  have hlong : 2 < (cutName hash).length := by
    rw [cutName, List.length_append]
    have hstart : pngStart.length = 12 := by decide
    omega
  have hname : ∀ short : List Char, short.length ≤ 2 → final (cutName hash) ≠ short := by
    intro short hshort heq
    rw [final_of_noSlash hcut] at heq
    rw [heq] at hlong
    omega
  rw [NamesChild, if_neg (not_or.mpr ⟨hname [] (by decide), hname ['.'] (by decide)⟩)]
  exact ⟨hname ['.', '.'] (by decide), leadsBack_of_noSlash hcut _⟩

theorem slash_not_mem_sanitizeFilename (s : List Char) : '/' ∉ sanitizeFilename s := by
  intro hm
  obtain ⟨c, -, hc⟩ := List.mem_map.mp hm
  split at hc
  · next hkeep =>
    subst hc
    exact absurd hkeep (by decide)
  · exact absurd hc (by decide)

theorem slash_not_mem_uidOf (io : PostIo) (id : String) : '/' ∉ uidOf io id := by
  unfold uidOf
  split
  · intro hm
    have hdigit := Nat.isDigit_of_mem_toDigits (by decide) (by decide) hm
    exact absurd hdigit (by decide)
  · exact slash_not_mem_sanitizeFilename _

/-! ## The files of a plugin -/

theorem inside_fetch {f : Fetch} {place : Place} {filePath : List Char}
    (hparents : ∀ t ∈ makeParents place filePath, t.Inside)
    (h : ∀ kind, kind ≠ .mkdir → Touch.Inside ⟨kind, place, pathBuf filePath⟩) :
    ∀ t ∈ f.files place filePath, t.Inside := by
  intro t ht
  unfold Fetch.files at ht
  split at ht
  · cases ht
  · rcases List.mem_append.mp ht with ht | ht
    · exact hparents t ht
    · rcases List.mem_append.mp ht with ht | ht
      · rcases List.mem_pair.mp ht with rfl | rfl
        · exact h _ (by decide)
        · exact h _ (by decide)
      · split at ht
        · rw [List.mem_singleton.mp ht]
          exact h _ (by decide)
        · cases ht

/-- The files of an icon whose hash stays. -/
theorem inside_iconFiles {hash : List Char} (h : HashStays hash) (io : IconIo) :
    ∀ t ∈ iconFiles io hash, t.Inside := by
  have hpng : Touch.Inside ⟨.delete, .assets, iconPathPng hash⟩ :=
    (inside_iconPathPng (by decide) hash).mpr h.assets
  have hrgba : ∀ kind, kind ≠ .mkdir → Touch.Inside ⟨kind, .assets, iconPath hash⟩ :=
    fun kind hkind => (inside_iconPath hkind hash).mpr h.assets
  have hbuffer : ∀ kind, kind ≠ .mkdir →
      Touch.Inside ⟨kind, .assets, pathBuf (iconPathPng hash)⟩ := by
    intro kind hkind
    by_cases hlong : fsMaxPath ≤ hash.length + 55
    · exact (inside_cut h.walks hkind).mpr (h.cut hlong)
    · have hwhole : pathBuf (iconPathPng hash) = iconPathPng hash :=
        List.take_of_length_le (by rw [length_iconPathPng]; omega)
      rw [hwhole]
      exact (inside_iconPathPng hkind hash).mpr h.assets
  have hparents := (inside_parentsPng hash).mpr h.walks
  intro t ht
  unfold iconFiles at ht
  dsimp only at ht
  split at ht
  · cases ht
  · rcases List.mem_append.mp ht with ht | ht
    · exact inside_fetch hparents hbuffer t ht
    · split at ht
      · cases ht
      · split at ht
        · rw [List.mem_singleton.mp ht]
          exact hpng
        · rcases List.mem_append.mp ht with ht | ht
          · rcases List.mem_pair.mp ht with rfl | rfl
            · exact hrgba _ (by decide)
            · exact hrgba _ (by decide)
          · split at ht
            · rw [List.mem_singleton.mp ht]
              exact hpng
            · split at ht
              · rcases List.mem_pair.mp ht with rfl | rfl
                · exact hrgba _ (by decide)
                · exact hpng
              · rw [List.mem_singleton.mp ht]
                exact hpng

theorem length_notifyPath (appId uid : List Char) :
    (notifyPath appId uid).length = appId.length + uid.length + 40 := by
  have hdir : Place.notifications.dir.length = 31 := by decide
  have hending : ".notify".toList.length = 7 := by decide
  simp only [notifyPath, List.length_append, List.length_cons, hdir, hending]
  omega

theorem length_uidOf_pos (io : PostIo) (id : String) : 0 < (uidOf io id).length := by
  unfold uidOf
  split
  · exact List.length_pos_of_ne_nil (Nat.toDigits_ne_nil)
  · next hfull =>
    rw [List.isEmpty_iff] at hfull
    exact List.length_pos_of_ne_nil hfull

/-- The file of a notification whose app walks nowhere else, and leads back if
it can be written. -/
theorem inside_postFiles {appId : List Char} (hwalks : Walks .notifications appId)
    (h : appId.length + 41 < fsMaxPath → LeadsBack .notifications appId)
    (io : PostIo) (id : String) : ∀ t ∈ postFiles io appId id, t.Inside := by
  have huid := slash_not_mem_uidOf io id
  intro t ht
  unfold postFiles at ht
  split at ht
  · cases ht
  · rcases List.mem_append.mp ht with ht | ht
    · exact (inside_parentsNotify huid appId).mpr hwalks t ht
    · split at ht
      · cases ht
      · next hshort =>
        rw [List.mem_singleton.mp ht, inside_notifyPath huid (by decide)]
        apply h
        have hpos := length_uidOf_pos io id
        rw [length_notifyPath] at hshort
        omega

theorem appIdOf_icon {hash : List Char} (h : hash ≠ []) :
    appIdOf true hash = iconStart ++ hash := by
  have hfull : (true && !hash.isEmpty) = true := by
    rw [Bool.true_and, Bool.not_eq_true', List.isEmpty_eq_false_iff]
    exact h
  have hstart : kAppId ++ ['_'] = iconStart := by decide
  rw [appIdOf, if_pos hfull, ← hstart, List.append_assoc]
  rfl

theorem appIdOf_client {showIcon : Bool} {hash : List Char} (h : showIcon = true → hash = []) :
    appIdOf showIcon hash = kAppId := by
  cases showIcon with
  | false => rfl
  | true => rw [h rfl, appIdOf, if_neg (by decide)]

/-- The app of a notification: the icon's, or the client itself. -/
theorem inside_appIdOf {hash : List Char} (h : hash ≠ [] → HashStays hash) (showIcon : Bool)
    (io : PostIo) (id : String) : ∀ t ∈ postFiles io (appIdOf showIcon hash) id, t.Inside := by
  by_cases hicon : showIcon = true ∧ hash ≠ []
  · obtain ⟨rfl, hne⟩ := hicon
    rw [appIdOf_icon hne]
    refine inside_postFiles (h hne).around (fun hshort => (h hne).notifications ?_) io id
    have hstart : iconStart.length = 11 := by decide
    rw [List.length_append] at hshort
    omega
  · have hclient : showIcon = true → hash = [] :=
      fun hshow => by_contra fun hne => hicon ⟨hshow, hne⟩
    rw [appIdOf_client hclient]
    exact inside_postFiles (walks_of_noSlash (by decide) _)
      (fun _ => leadsBack_of_noSlash (by decide) _) io id

theorem bytes_ne_nil {text : String} (h : text ≠ "") : bytes text ≠ [] := by
  intro hnil
  have hutf : utf8 text.toList = [] := List.map_eq_nil_iff.mp hnil
  have htext := ofUtf8_utf8 text.toList
  rw [hutf] at htext
  have hempty : ofUtf8 [] = some [] := ofUtf8_utf8 []
  rw [hempty] at htext
  exact h (String.toList_inj.mp (Option.some.inj htext).symm)

/-- A text in a packet holds no NUL. -/
theorem valueStr_nulFree (body : JsonBody) (key : String) : NulFree (body.valueStr key "") := by
  unfold JsonBody.valueStr
  split
  · split
    · exact cstr_nulFree _
    · decide
  · decide

/-- Every hash that is remembered stays. -/
def Remembers (p : NotificationPlugin) : Prop :=
  ∀ entry ∈ p.appIconHash, entry.2 ≠ "" → HashStays (bytes entry.2)

/-- The hash of a packet is its own or a remembered one. -/
theorem hashStays_iconOf {p : NotificationPlugin} (h : Remembers p) {payloadHash : String}
    (hpacket : payloadHash ≠ "" → HashStays (bytes payloadHash)) (mapBegin : Nat) (app : String) :
    let icon := NotificationPlugin.iconOf mapBegin app payloadHash p.appIconHash
    (icon.1 ≠ "" → HashStays (bytes icon.1)) ∧
      ∀ entry ∈ icon.2, entry.2 ≠ "" → HashStays (bytes entry.2) := by
  dsimp only
  unfold NotificationPlugin.iconOf
  split
  · refine ⟨?_, h⟩
    dsimp only
    cases hfound : p.appIconHash.lookup app with
    | none =>
      intro hne
      exact absurd rfl hne
    | some hash =>
      obtain ⟨before, after, hentries, -⟩ := List.lookup_eq_some_iff.mp hfound
      refine h (app, hash) ?_
      rw [hentries]
      exact List.mem_append_right _ List.mem_cons_self
  · refine ⟨hpacket, ?_⟩
    intro entry hm
    rcases List.mem_cons.mp hm with rfl | hm
    · exact hpacket
    · refine h entry ?_
      have hkept := List.mem_of_mem_filter hm
      split at hkept
      · exact List.mem_of_mem_eraseIdx hkept
      · exact hkept

theorem receive_icons (env : PluginEnv) (body : JsonBody) (p : NotificationPlugin) :
    (NotificationPlugin.receive env body p).1.appIconHash = p.appIconHash ∨
      (NotificationPlugin.receive env body p).1.appIconHash =
        (NotificationPlugin.iconOf env.mapBegin (body.valueStr "appName" "Unknown")
          (body.valueStr "payloadHash" "") p.appIconHash).2 := by
  unfold NotificationPlugin.receive
  dsimp only
  split
  · exact .inl rfl
  · split
    · exact .inr rfl
    · exact .inr rfl

theorem receive_notice {env : PluginEnv} {body : JsonBody} {p : NotificationPlugin}
    {notice : AppNotice} (h : (NotificationPlugin.receive env body p).2 = some notice) :
    notice.iconHash = (NotificationPlugin.iconOf env.mapBegin (body.valueStr "appName" "Unknown")
      (body.valueStr "payloadHash" "") p.appIconHash).1 := by
  unfold NotificationPlugin.receive at h
  dsimp only at h
  split at h
  · cases h
  · split at h
    · cases h
    · dsimp only at h
      split_ifs at h
      cases h
      rfl

/-- The event brings no other hashes than these. -/
def Event.Concerns (hashes : Set String) : Event → Prop
  | .packet _ _ np =>
    np.body.valueStr "payloadHash" "" ≠ "" → np.body.valueStr "payloadHash" "" ∈ hashes
  | .notice _ _ _ => True

/-- Every file that is touched is where it belongs. -/
def Stays (p : NotificationPlugin) (e : Event) : Prop := ∀ t ∈ files p e, t.Inside

/-- A packet whose hash stays, if it has one: its files are where they belong. -/
theorem inside_noticeFiles {p : NotificationPlugin} (h : Remembers p) {np : NetworkPacket}
    (hpacket : np.body.valueStr "payloadHash" "" ≠ "" →
      HashStays (bytes (np.body.valueStr "payloadHash" "")))
    (env : PluginEnv) (io : NoticeIo) : ∀ t ∈ noticeFiles env io np p, t.Inside := by
  obtain ⟨hicon, -⟩ :=
    hashStays_iconOf h hpacket env.mapBegin (np.body.valueStr "appName" "Unknown")
  intro t ht
  unfold noticeFiles at ht
  dsimp only at ht
  split at ht
  · cases ht
  · split at ht
    · cases ht
    · rcases List.mem_append.mp ht with ht | ht
      · rcases List.mem_append.mp ht with ht | ht
        · split at ht
          · next hwrites =>
            rw [Bool.and_eq_true, Bool.not_eq_true', String.isEmpty_eq_false_iff] at hwrites
            exact inside_iconFiles (hicon hwrites.2) io.icon t ht
          · cases ht
        · split at ht
          · rw [List.mem_singleton.mp ht,
              inside_notifyPath (slash_not_mem_sanitizeFilename _) (by decide)]
            exact leadsBack_of_noSlash (by decide) _
          · cases ht
      · cases hnotice : (NotificationPlugin.receive env np.body p).2 with
        | none =>
          rw [hnotice] at ht
          cases ht
        | some notice =>
          rw [hnotice] at ht
          refine inside_appIdOf ?_ io.showIcon io.post notice.id t ht
          rw [receive_notice hnotice]
          intro hne
          refine hicon ?_
          intro hempty
          rw [hempty] at hne
          exact hne rfl

/-- A step about hashes that stay keeps its files where they belong, and is
remembered by such hashes only. -/
theorem step_stays {hashes : Set String}
    (hhashes : ∀ hash ∈ hashes, NulFree hash → hash ≠ "" → HashStays (bytes hash))
    {p : NotificationPlugin} (h : Remembers p) {e : Event} (he : e.Concerns hashes) :
    Remembers (step p e) ∧ Stays p e := by
  cases e with
  | packet env io np =>
    have hpacket : np.body.valueStr "payloadHash" "" ≠ "" →
        HashStays (bytes (np.body.valueStr "payloadHash" "")) :=
      fun hne => hhashes _ (he hne) (valueStr_nulFree np.body "payloadHash") hne
    refine ⟨?_, inside_noticeFiles h hpacket env io⟩
    obtain ⟨-, hicons⟩ :=
      hashStays_iconOf h hpacket env.mapBegin (np.body.valueStr "appName" "Unknown")
    have hstep : step p (.packet env io np) = (p.onPacketReceived env np).1 := rfl
    rw [hstep, NotificationPlugin.onPacketReceived]
    split
    · exact h
    · rcases receive_icons env np.body p with hsame | hnew
      · unfold Remembers
        dsimp only
        rw [hsame]
        exact h
      · unfold Remembers
        dsimp only
        rw [hnew]
        exact hicons
  | notice io app id =>
    have happ : '/' ∉ app.id := by
      cases app <;> decide
    exact ⟨h, inside_postFiles (walks_of_noSlash happ _) (fun _ => leadsBack_of_noSlash happ _)
      io id⟩

/-! ## All received files -/

/-- No slash and no backslash is left in what stands behind the last. -/
theorem baseName_clean (filename : List Char) :
    '/' ∉ baseName filename ∧ '\\' ∉ baseName filename := by
  have hbase : ∀ c ∈ baseName filename, (c != '/' && c != '\\') = true := by
    intro c hc
    rw [baseName, List.mem_reverse] at hc
    exact List.mem_takeWhile_imp (p := fun c => c != '/' && c != '\\') hc
  exact ⟨fun hm => absurd (hbase _ hm) (by decide), fun hm => absurd (hbase _ hm) (by decide)⟩

/-- For a shared file no folder is made but the root. -/
theorem rootFile_makeParents (filename : List Char) :
    ∀ t ∈ makeParents .root (sharedPath filename), t.RootFile := by
  have hname : '/' ∉ (if (baseName filename).isEmpty then receivedFile else baseName filename) := by
    split
    · decide
    · exact (baseName_clean filename).1
  have hparent : parentOf (sharedPath filename) = some [] := parentOf_eq hname []
  have hmade : makeDirectories .root [] =
      [⟨.mkdir, .root, cardName⟩, ⟨.mkdir, .root, cardName ++ ['/']⟩] := by decide
  have hroot : ∀ dir : List Char, normalize (dir.drop cardName.length) = [] →
      Touch.RootFile ⟨.mkdir, .root, dir⟩ := fun dir h => h
  intro t ht
  rw [makeParents, hparent, Option.elim_some, hmade] at ht
  rcases List.mem_pair.mp ht with rfl | rfl
  · exact hroot _ (by decide)
  · exact hroot _ (by decide)

/-- A cut leaves a text that is shorter than it, and makes none. -/
theorem take_eq_iff {α : Type} {size : Nat} {text short : List α} (h : short.length < size) :
    text.take size = short ↔ text = short := by
  constructor
  · intro heq
    have hlength := congrArg List.length heq
    rw [List.length_take] at hlength
    rwa [List.take_of_length_le (by omega)] at heq
  · rintro rfl
    exact List.take_of_length_le (by omega)

/-- A shared file is a direct child of the root, exactly if its name is no dot
component. -/
theorem rootFile_iff {kind : Access} (hkind : kind ≠ .mkdir) (filename : List Char) :
    Touch.RootFile ⟨kind, .root, pathBuf (sharedPath filename)⟩ ↔
      baseName filename ≠ ['.'] ∧ baseName filename ≠ ['.', '.'] := by
  have hmax : fsMaxPath - 1 = 767 + 1 := by decide
  obtain ⟨name, hname, hpath⟩ : ∃ name,
      name = (if (baseName filename).isEmpty then receivedFile else baseName filename) ∧
        pathBuf (sharedPath filename) = '/' :: name.take 767 := by
    refine ⟨_, rfl, ?_⟩
    rw [pathBuf, sharedPath, hmax, List.take_succ_cons]
  have hfull : name ≠ [] := by
    rw [hname]
    split
    · decide
    · next hfull =>
      rw [List.isEmpty_iff] at hfull
      exact hfull
  have hclean : '/' ∉ name ∧ '\\' ∉ name := by
    rw [hname]
    split
    · decide
    · exact baseName_clean filename
  have hdots : ∀ dots : List Char, dots.length ≤ 2 → dots ≠ [] →
      (name.take 767 = dots ↔ baseName filename = dots) := by
    intro dots hshort hne
    rw [take_eq_iff (by omega), hname]
    split
    · next hempty =>
      rw [List.isEmpty_iff] at hempty
      rw [hempty]
      refine iff_of_false ?_ (Ne.symm hne)
      rintro rfl
      exact absurd hshort (by decide)
    · exact Iff.rfl
  have hone := hdots ['.'] (by decide) (by decide)
  have htwo := hdots ['.', '.'] (by decide) (by decide)
  rw [Ne, Ne, ← hone, ← htwo, Touch.RootFile, if_neg hkind]
  constructor
  · rintro ⟨child, hchild, -, -, -, hdot, hdotdot⟩
    have hsame : name.take 767 = child := (List.cons.inj (hpath.symm.trans hchild)).2
    rw [hsame]
    exact ⟨hdot, hdotdot⟩
  · rintro ⟨hdot, hdotdot⟩
    refine ⟨name.take 767, hpath, fun hm => hclean.1 (List.mem_of_mem_take hm),
      fun hm => hclean.2 (List.mem_of_mem_take hm), ?_, hdot, hdotdot⟩
    intro hnil
    rcases List.take_eq_nil_iff.mp hnil with hzero | hempty
    · exact absurd hzero (by decide)
    · exact hfull hempty

/-- Whatever packets come with these file names and these hashes, every file is
where it belongs: a shared file has one ordinary name below the root, and the
files of notifications are direct children of their folders. -/
structure Contained (filenames hashes : Set String) : Prop where
  shared : ∀ (np : NetworkPacket) (f : Fetch), np.body.getStr "filename" ∈ filenames →
    ∀ t ∈ sharedFiles f np, t.RootFile
  notifications : ∀ events : List Event, (∀ e ∈ events, e.Concerns hashes) →
    EveryStep step Stays {} events

/-- What stands after the last slash or backslash of a file name is no dot
component, and the hashes stay. -/
structure PlainNames (filenames hashes : Set String) : Prop where
  filename : ∀ filename ∈ filenames, NulFree filename →
    baseName (bytes filename) ≠ ['.'] ∧ baseName (bytes filename) ≠ ['.', '.']
  hash : ∀ hash ∈ hashes, NulFree hash → hash ≠ "" → HashStays (bytes hash)

/-- A packet with a payload and one text. -/
def packetWith (type key text : String) : NetworkPacket where
  type := type
  body := ({} : JsonBody).setStr key text
  payloadSize := 1
  payloadPort := 1

theorem valueStr_packetWith (type key : String) {text : String} (h : NulFree text) :
    (packetWith type key text).body.valueStr key "" = text := by
  have hfield : (packetWith type key text).body.field key = some (.str (cstr text)) :=
    JsonBody.field_setVal_self _ _ _
  unfold JsonBody.valueStr
  rw [hfield]
  exact (cstr_of_nulFree (cstr_nulFree text)).trans (cstr_of_nulFree h)

theorem shared_iff {filename : String} (h : NulFree filename) :
    (∀ (np : NetworkPacket) (f : Fetch), np.body.getStr "filename" = filename →
      ∀ t ∈ sharedFiles f np, t.RootFile) ↔
      baseName (bytes filename) ≠ ['.'] ∧ baseName (bytes filename) ≠ ['.', '.'] := by
  constructor
  · intro hall
    have hname : (packetWith PacketTypes.shareRequest "filename" filename).body.getStr "filename" =
        filename := valueStr_packetWith _ _ h
    have hfiles : sharedFiles {} (packetWith PacketTypes.shareRequest "filename" filename) =
        Fetch.files {} .root (sharedPath (bytes filename)) := by
      have hurl : (packetWith PacketTypes.shareRequest "filename" filename).body.isStr "url" =
          false := rfl
      have htext : (packetWith PacketTypes.shareRequest "filename" filename).body.isStr "text" =
          false := rfl
      have hstr : (packetWith PacketTypes.shareRequest "filename" filename).body.isStr "filename" =
          true := rfl
      unfold sharedFiles
      rw [hurl, htext, hstr, hname]
      rfl
    have htouch := hall _ {} hname ⟨.write, .root, pathBuf (sharedPath (bytes filename))⟩ (by
      rw [hfiles]
      simp [Fetch.files, Fetch.connected])
    exact (rootFile_iff (by decide) _).mp htouch
  · rintro hdots np f hname t ht
    unfold sharedFiles at ht
    split_ifs at ht
    · cases ht
    · cases ht
    · cases ht
    · rw [hname] at ht
      have hroot : ∀ kind, kind ≠ .mkdir →
          Touch.RootFile ⟨kind, .root, pathBuf (sharedPath (bytes filename))⟩ :=
        fun kind hkind => (rootFile_iff hkind _).mpr hdots
      unfold Fetch.files at ht
      split at ht
      · cases ht
      · rcases List.mem_append.mp ht with ht | ht
        · exact rootFile_makeParents _ t ht
        · rcases List.mem_append.mp ht with ht | ht
          · rcases List.mem_pair.mp ht with rfl | rfl
            · exact hroot _ (by decide)
            · exact hroot _ (by decide)
          · split at ht
            · rw [List.mem_singleton.mp ht]
              exact hroot _ (by decide)
            · cases ht
    · cases ht

/-- A notification that comes with a hash and a payload, and nothing else. -/
def iconPacket (hash : String) : NetworkPacket :=
  packetWith PacketTypes.notification "payloadHash" hash

/-- It writes the icon and a notification with the shortest name. -/
theorem noticeFiles_iconPacket {hash : String} (h : NulFree hash) (hne : hash ≠ "") :
    noticeFiles { json := Yyjson.reference, steady := 0 } {} (iconPacket hash) {} =
      iconFiles {} (bytes hash) ++ postFiles {} (iconStart ++ bytes hash) "" := by
  have hhash : (iconPacket hash).body.valueStr "payloadHash" "" = hash := valueStr_packetWith _ _ h
  have hother : ∀ key, key ≠ "payloadHash" → (iconPacket hash).body.field key = none :=
    fun key hkey => JsonBody.field_setVal_ne hkey _ _
  have hstr : ∀ key default, key ≠ "payloadHash" →
      (iconPacket hash).body.valueStr key default = default := by
    intro key default hkey
    rw [JsonBody.valueStr, hother key hkey]
  have hbool : ∀ key, key ≠ "payloadHash" → (iconPacket hash).body.valueBool key false = false := by
    intro key hkey
    rw [JsonBody.valueBool, hother key hkey]
  have hempty : hash.isEmpty = false := String.isEmpty_eq_false_iff.mpr hne
  have hicon : NotificationPlugin.iconOf 0 "Unknown" hash [] = (hash, [("Unknown", hash)]) := by
    unfold NotificationPlugin.iconOf
    rw [hempty]
    rfl
  have hreceive : (NotificationPlugin.receive { json := Yyjson.reference, steady := 0 }
      (iconPacket hash).body {}).2 = some ⟨"", "Unknown", "", "", hash⟩ := by
    unfold NotificationPlugin.receive
    dsimp only
    rw [hbool "isCancel" (by decide), hstr "appName" _ (by decide), hstr "id" _ (by decide),
      hstr "time" _ (by decide), hbool "silent" (by decide), hstr "title" _ (by decide),
      hstr "text" _ (by decide), hhash, hicon]
    rfl
  unfold noticeFiles
  dsimp only
  rw [hbool "isCancel" (by decide), hstr "appName" _ (by decide), hstr "id" _ (by decide),
    hstr "time" _ (by decide), hhash, hicon, hreceive, ← appIdOf_icon (bytes_ne_nil hne)]
  have hwrites : ((iconPacket hash).hasPayload && !hash.isEmpty) = true := by
    rw [hempty]
    rfl
  dsimp only
  rw [hwrites]
  simp [iconPacket, packetWith, upgrades]

/-- Its icon's folders are made first. -/
theorem walks_of_inside {hash : List Char}
    (h : ∀ t ∈ iconFiles {} hash ++ postFiles {} (iconStart ++ hash) "", t.Inside) :
    Walks .assets (pngStart ++ hash) := by
  rw [← inside_parentsPng]
  intro t ht
  refine h t (List.mem_append_left _ ?_)
  simp only [iconFiles, Fetch.files, Fetch.connected]
  exact List.mem_append_left _ (List.mem_append_left _ ht)

/-- Its hash stays if these files are where they belong. -/
theorem hashStays_of_inside {hash : List Char}
    (h : ∀ t ∈ iconFiles {} hash ++ postFiles {} (iconStart ++ hash) "", t.Inside) :
    HashStays hash where
  walks := walks_of_inside h
  assets := by
    have hwrite : Access.write ≠ .mkdir := by decide
    rw [← inside_iconPath hwrite]
    refine h _ ?_
    simp [iconFiles, Fetch.ok, Fetch.connected]
  cut := by
    intro _
    have hwrite : Access.write ≠ .mkdir := by decide
    rw [← inside_cut (walks_of_inside h) hwrite]
    refine h _ ?_
    simp [iconFiles, Fetch.files, Fetch.connected]
  around := by
    rw [← inside_parentsNotify (slash_not_mem_uidOf {} "")]
    intro t ht
    refine h t (List.mem_append_right _ ?_)
    rw [postFiles, if_neg (by decide)]
    exact List.mem_append_left _ ht
  notifications := by
    intro hshort
    have huid : uidOf {} "" = ['0'] := by decide
    have hwrite : Access.write ≠ .mkdir := by decide
    rw [← inside_notifyPath (slash_not_mem_uidOf {} "") hwrite]
    refine h _ (List.mem_append_right _ ?_)
    have hlength : (notifyPath (iconStart ++ hash) (uidOf {} "")).length = hash.length + 52 := by
      have hstart : iconStart.length = 11 := by decide
      rw [length_notifyPath, huid, List.length_append, List.length_singleton]
      omega
    rw [postFiles, if_neg (by decide), if_neg (by omega)]
    exact List.mem_append_right _ (List.mem_singleton_self _)

/-- Exactly the plain names keep every received file where it belongs. -/
theorem contained_iff (filenames hashes : Set String) :
    Contained filenames hashes ↔ PlainNames filenames hashes := by
  constructor
  · intro h
    refine ⟨?_, ?_⟩
    · intro filename hm hfree
      exact (shared_iff hfree).mp fun np f hname => h.shared np f (by rw [hname]; exact hm)
    · intro hash hm hfree hne
      have hconcerns : ∀ e ∈ [Event.packet { json := Yyjson.reference, steady := 0 } {}
          (iconPacket hash)], e.Concerns hashes := by
        intro e he
        rw [List.mem_singleton.mp he]
        intro _
        have hhash : (iconPacket hash).body.valueStr "payloadHash" "" = hash :=
          valueStr_packetWith _ _ hfree
        rw [hhash]
        exact hm
      have hstays := (h.notifications _ hconcerns).1
      unfold Stays files at hstays
      dsimp only at hstays
      rw [noticeFiles_iconPacket hfree hne] at hstays
      exact hashStays_of_inside hstays
  · intro h
    refine ⟨?_, ?_⟩
    · intro np f hm
      exact (shared_iff (valueStr_nulFree np.body "filename")).mpr
        (h.filename _ hm (valueStr_nulFree np.body "filename")) np f rfl
    · intro events hevents
      have hall : ∀ (events : List Event) (p : NotificationPlugin), Remembers p →
          (∀ e ∈ events, e.Concerns hashes) → EveryStep step Stays p events := by
        intro events
        induction events with
        | nil =>
          intro p _ _
          trivial
        | cons e events ih =>
          intro p hp hconcerns
          have hnext := step_stays h.hash hp (hconcerns e List.mem_cons_self)
          exact ⟨hnext.2, ih _ hnext.1 fun e' he' => hconcerns e' (List.mem_cons_of_mem _ he')⟩
      refine hall events {} ?_ hevents
      intro entry hm
      cases hm

/-- A share called `..`, and a hash that climbs out of the folder. -/
theorem notContained_dots :
    ¬ ∀ filenames hashes, Contained filenames hashes := by
  intro h
  have hfree : NulFree ".." := by decide
  have hshared := (shared_iff hfree).mp fun np f hname => (h {".."} ∅).shared np f hname
  exact absurd rfl hshared.2

end KdeConnectNx.ReceivedFiles
