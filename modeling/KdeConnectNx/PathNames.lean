import Mathlib.Data.List.Basic

/-!
# Path names and where they lead

A path is cut at its slashes. Entering an empty component or `.` stays in the
folder, `..` leaves it (at the top it stays), any other name goes one level
down. A path is normalised by entering its components from the top.
-/

namespace KdeConnectNx.PathNames

/-- A name of one folder or file. -/
abbrev Name := List Char

/-- A folder, by the names that lead to it from the top. -/
abbrev Folder := List Name

/-- The components of a path, empty ones included. -/
def components (path : List Char) : List Name := path.splitOn '/'

/-- The folder one component leads to. -/
def enter (folder : Folder) (name : Name) : Folder :=
  if name = [] ∨ name = ['.'] then folder
  else if name = ['.', '.'] then folder.dropLast
  else folder ++ [name]

/-- The folder a list of components leads to. -/
def resolve (folder : Folder) (names : List Name) : Folder := names.foldl enter folder

/-- A path without `.` and `..`, as the names from the top. -/
def normalize (path : List Char) : Folder := resolve [] (components path)

/-- The components of a name before its last slash. -/
def leading (name : List Char) : List Name := (components name).dropLast

/-- What stands after the last slash of a name. -/
def final (name : List Char) : Name := (components name).getLastD []

theorem resolve_append (folder : Folder) (first second : List Name) :
    resolve folder (first ++ second) = resolve (resolve folder first) second :=
  List.foldl_append

theorem components_append_slash (first second : List Char) :
    components (first ++ '/' :: second) = components first ++ components second :=
  List.splitOn_append_cons_self first second

/-- A path that goes on after a slash leads on from where its start leads. -/
theorem normalize_append_slash (first second : List Char) :
    normalize (first ++ '/' :: second) = resolve (normalize first) (components second) := by
  rw [normalize, components_append_slash, resolve_append]
  rfl

/-- An ordinary name goes one level down. -/
theorem enter_name {name : Name} (hempty : name ≠ []) (hdot : name ≠ ['.'])
    (hdots : name ≠ ['.', '.']) (folder : Folder) : enter folder name = folder ++ [name] := by
  have hstay : ¬ (name = [] ∨ name = ['.']) := by
    rw [not_or]
    exact ⟨hempty, hdot⟩
  rw [enter, if_neg hstay, if_neg hdots]

/-- What is put behind a name goes on in its last component. -/
theorem components_append (name ending : List Char) :
    components (name ++ ending) =
      leading name ++ (components ending).modifyHead (final name ++ ·) := by
  induction name with
  | nil =>
    obtain ⟨first, more, hending⟩ := List.exists_cons_of_ne_nil (List.splitOn_ne_nil '/' ending)
    have hcut : components ending = first :: more := hending
    rw [List.nil_append, hcut]
    rfl
  | cons c name ih =>
    obtain ⟨first, more, hname⟩ := List.exists_cons_of_ne_nil (List.splitOn_ne_nil '/' name)
    have hwhole : components (c :: (name ++ ending)) =
        if c == '/' then [] :: components (name ++ ending)
        else (components (name ++ ending)).modifyHead (List.cons c) :=
      List.splitOn_cons_eq_if_modifyHead c (name ++ ending)
    have hpart : components (c :: name) =
        if c == '/' then [] :: components name
        else (components name).modifyHead (List.cons c) :=
      List.splitOn_cons_eq_if_modifyHead c name
    have hcut : components name = first :: more := hname
    rw [List.cons_append, hwhole, ih]
    unfold leading final
    rw [hpart, hcut]
    by_cases hc : (c == '/') = true
    · rw [if_pos hc, if_pos hc]
      rfl
    · rw [if_neg hc, if_neg hc]
      cases more with
      | nil =>
        obtain ⟨head, tail, hending⟩ :=
          List.exists_cons_of_ne_nil (List.splitOn_ne_nil '/' ending)
        have hend : components ending = head :: tail := hending
        rw [hend]
        rfl
      | cons second more => rfl

/-- An ending without a slash lengthens the last component only. -/
theorem components_append_end {ending : List Char} (h : '/' ∉ ending) (name : List Char) :
    components (name ++ ending) = leading name ++ [final name ++ ending] := by
  have hone : components ending = [ending] := List.splitOn_eq_singleton h
  rw [components_append, hone]
  rfl

/-- It leaves what stands before the last slash. -/
theorem leading_append_end {ending : List Char} (h : '/' ∉ ending) (name : List Char) :
    leading (name ++ ending) = leading name := by
  rw [leading, components_append_end h, List.dropLast_concat]

/-- What leads to a part of a name leads on to the name. -/
theorem leading_prefix (name ending : List Char) : leading name <+: leading (name ++ ending) := by
  obtain ⟨first, more, hending⟩ := List.exists_cons_of_ne_nil (List.splitOn_ne_nil '/' ending)
  have hcut : components ending = first :: more := hending
  have hwhole : leading (name ++ ending) =
      (leading name ++ (final name ++ first) :: more).dropLast := by
    rw [leading, components_append, hcut]
    rfl
  rw [hwhole, List.dropLast_append_of_ne_nil (List.cons_ne_nil _ _)]
  exact List.prefix_append _ _

/-- A name without a slash has nothing before it. -/
theorem leading_of_noSlash {name : List Char} (h : '/' ∉ name) : leading name = [] := by
  have hone : components name = [name] := List.splitOn_eq_singleton h
  rw [leading, hone]
  rfl

theorem final_of_noSlash {name : List Char} (h : '/' ∉ name) : final name = name := by
  have hone : components name = [name] := List.splitOn_eq_singleton h
  rw [final, hone]
  rfl

/-- A file named inside a folder, its ending longer than two characters: the
part before the last slash leads on, the rest names the file. -/
theorem normalize_inside {ending : List Char} (hslash : '/' ∉ ending) (hlong : 2 < ending.length)
    (folder name : List Char) :
    normalize (folder ++ '/' :: (name ++ ending)) =
      resolve (normalize folder) (leading name) ++ [final name ++ ending] := by
  have hlen : 2 < (final name ++ ending).length := by
    rw [List.length_append]
    omega
  have hne : ∀ short : List Char, short.length ≤ 2 → final name ++ ending ≠ short := by
    intro short hshort heq
    rw [heq] at hlen
    omega
  rw [normalize_append_slash, components_append_end hslash, resolve_append]
  exact enter_name (hne [] (by decide)) (hne ['.'] (by decide)) (hne ['.', '.'] (by decide)) _

/-- A beginning without a slash lengthens the first component only. -/
theorem components_append_start {start : List Char} (h : '/' ∉ start) (name : List Char) :
    components (start ++ name) = (components name).modifyHead (start ++ ·) := by
  rw [components_append, leading_of_noSlash h, final_of_noSlash h, List.nil_append]

/-- A name is what leads to its last component, and that. -/
theorem components_eq (name : List Char) : components name = leading name ++ [final name] := by
  have h := components_append name []
  rw [List.append_nil] at h
  rw [h]
  exact congrArg (fun last => leading name ++ [last]) (List.append_nil _)

/-- A path is cut where its components are. -/
theorem exists_slash_of_components {path : List Char} {first second : List Name}
    (h : components path = first ++ second) (hfirst : first ≠ []) (hsecond : second ≠ []) :
    ∃ before after, path = before ++ '/' :: after ∧ components before = first ∧
      components after = second := by
  induction path generalizing first with
  | nil =>
    have hlength : (components []).length = 1 := rfl
    rw [h, List.length_append] at hlength
    have hone := List.length_pos_iff.mpr hfirst
    have htwo := List.length_pos_iff.mpr hsecond
    omega
  | cons c path ih =>
    have hwhole : components (c :: path) =
        if c == '/' then [] :: components path else (components path).modifyHead (List.cons c) :=
      List.splitOn_cons_eq_if_modifyHead c path
    rw [hwhole] at h
    obtain ⟨name, names, rfl⟩ := List.exists_cons_of_ne_nil hfirst
    split at h
    · rename_i hc
      rw [beq_iff_eq] at hc
      obtain ⟨rfl, hrest⟩ := List.cons.inj h
      cases names with
      | nil => exact ⟨[], path, by rw [hc]; rfl, rfl, hrest⟩
      | cons next names =>
        obtain ⟨before, after, rfl, hbefore, hafter⟩ := ih hrest (List.cons_ne_nil _ _)
        refine ⟨'/' :: before, after, by rw [hc]; rfl, ?_, hafter⟩
        rw [← hbefore]
        exact List.splitOn_cons_eq_if_modifyHead '/' before
    · rename_i hc
      obtain ⟨head, tail, hpath⟩ := List.exists_cons_of_ne_nil (List.splitOn_ne_nil '/' path)
      have hcut : components path = head :: tail := hpath
      rw [hcut, List.modifyHead_cons] at h
      obtain ⟨rfl, hrest⟩ := List.cons.inj h
      have hsplit : components path = (head :: names) ++ second := by
        rw [hcut, hrest]
        rfl
      obtain ⟨before, after, rfl, hbefore, hafter⟩ := ih hsplit (List.cons_ne_nil _ _)
      refine ⟨c :: before, after, rfl, ?_, hafter⟩
      have hpart : components (c :: before) =
          if c == '/' then [] :: components before
          else (components before).modifyHead (List.cons c) :=
        List.splitOn_cons_eq_if_modifyHead c before
      rw [hpart, if_neg hc, hbefore]
      rfl

/-- A path of one component has no slash. -/
theorem noSlash_of_components {path : List Char} {name : Name} (h : components path = [name]) :
    '/' ∉ path := by
  intro hm
  obtain ⟨before, after, rfl⟩ := List.append_of_mem hm
  rw [components_append_slash] at h
  have hlength := congrArg List.length h
  have hone := List.length_pos_iff.mpr (List.splitOn_ne_nil '/' before)
  have htwo := List.length_pos_iff.mpr (List.splitOn_ne_nil '/' after)
  rw [List.length_append, List.length_singleton] at hlength
  unfold components at hlength
  omega

/-- What stands before the last slash of a path that has one. -/
def parentOf (path : List Char) : Option (List Char) :=
  if '/' ∈ path then some ((path.reverse.dropWhile (· != '/')).drop 1).reverse else none

theorem parentOf_eq {name : List Char} (h : '/' ∉ name) (parent : List Char) :
    parentOf (parent ++ '/' :: name) = some parent := by
  have hslash : '/' ∈ parent ++ '/' :: name := List.mem_append_right _ List.mem_cons_self
  have hname : ∀ c ∈ name.reverse, (c != '/') = true := by
    intro c hc
    rw [bne_iff_ne]
    rintro rfl
    exact h (List.mem_reverse.mp hc)
  rw [parentOf, if_pos hslash, List.reverse_append, List.reverse_cons, List.append_assoc,
    List.dropWhile_append_of_pos hname]
  simp

/-- The folder a path names its file in. -/
theorem parentOf_inside (folder name : List Char) : ∃ parent,
    parentOf (folder ++ '/' :: name) = some parent ∧
      components parent = components folder ++ leading name := by
  have hpath : components (folder ++ '/' :: name) =
      (components folder ++ leading name) ++ [final name] := by
    rw [components_append_slash, components_eq name, List.append_assoc]
  have hne : components folder ++ leading name ≠ [] :=
    List.append_ne_nil_of_left_ne_nil (List.splitOn_ne_nil '/' folder) _
  obtain ⟨parent, last, hwhole, hparent, hlast⟩ :=
    exists_slash_of_components hpath hne (List.cons_ne_nil _ _)
  exact ⟨parent, hwhole ▸ parentOf_eq (noSlash_of_components hlast) parent, hparent⟩

/-- A long name is an ordinary one. -/
theorem enter_long {name : Name} (h : 2 < name.length) (folder : Folder) :
    enter folder name = folder ++ [name] := by
  refine enter_name ?_ ?_ ?_ folder
  · rintro rfl
    exact absurd h (by decide)
  · rintro rfl
    exact absurd h (by decide)
  · rintro rfl
    exact absurd h (by decide)

/-- Names that lead from below a child of a folder back to the folder do so from
below any other child. -/
theorem resolve_below {first second : Name} {folder : Folder} {names : List Name} :
    ∀ {below : List Name}, resolve (folder ++ first :: below) names = folder →
      resolve (folder ++ second :: below) names = folder := by
  induction names with
  | nil =>
    intro below hback
    have hlength := congrArg List.length hback
    simp [resolve] at hlength
  | cons name names ih =>
    intro below hback
    have hstep : ∀ folder : Folder, resolve folder (name :: names) =
        resolve (enter folder name) names := fun _ => rfl
    rw [hstep] at hback ⊢
    unfold enter at hback ⊢
    split
    · next hstay =>
      rw [if_pos hstay] at hback
      exact ih hback
    · next hstay =>
      rw [if_neg hstay] at hback
      split
      · next hup =>
        rw [if_pos hup] at hback
        cases below with
        | nil =>
          rw [List.dropLast_concat] at hback ⊢
          exact hback
        | cons top below =>
          have hdrop : ∀ name : Name, (folder ++ name :: top :: below).dropLast =
              folder ++ name :: (top :: below).dropLast := by
            intro name
            rw [List.dropLast_append_of_ne_nil (List.cons_ne_nil _ _)]
            rfl
          rw [hdrop] at hback ⊢
          exact ih hback
      · next hup =>
        rw [if_neg hup, List.append_assoc] at hback
        rw [List.append_assoc]
        exact ih hback

/-- Where the components of a name lead back to the folder they start in, the
first one being an ordinary name, that name does not matter. -/
theorem resolve_rename {first second : Name} (hfirst : 2 < first.length)
    (hsecond : 2 < second.length) {folder : Folder} {names : List Name}
    (h : resolve folder (first :: names) = folder) :
    resolve folder (second :: names) = folder := by
  have hstart : ∀ name : Name, 2 < name.length →
      resolve folder (name :: names) = resolve (folder ++ [name]) names :=
    fun name hname => congrArg (resolve · names) (enter_long hname folder)
  rw [hstart first hfirst] at h
  rw [hstart second hsecond]
  exact resolve_below h

end KdeConnectNx.PathNames
