import StreamTap.Files.Tree

/-!
# What writing leaves alone

Directories are made where nothing is, and a file is written where nothing or a file is.  So
what is a directory stays one, and no file but the one that is written comes or goes or changes
its content (`Keeps`).  Hence every path that led through directories still does, to the same
location (`Keeps.locate`), and a file that was found under a path still is, unless it is the
one that was written (`Keeps.content`).

Whatever an operation does, it does at the location that its path leads to (`locate`), and what
is read under a path is what is at this location (`content_eq_ok`).
-/

namespace StreamTap

namespace FileTree

variable {t t' t'' : FileTree} {l m : Location} {p : Path} {node : Node}

/-- The location that a path leads to; nothing need be there. -/
def locate (t : FileTree) (p : Path) : Except FileError Location := do
  let (directory, name) ← t.follow p
  directory.look name

theorem bind_eq_ok {α β : Type} {x : Except FileError α} {f : α → Except FileError β} {b : β} :
    (x >>= f) = .ok b ↔ ∃ a, x = .ok a ∧ f a = .ok b := by
  cases x with
  | error e => exact ⟨(nomatch ·), fun ⟨_, h, _⟩ => nomatch h⟩
  | ok a => exact ⟨fun h => ⟨a, rfl, h⟩, fun ⟨_, h, hf⟩ => by cases h; exact hf⟩

/-! ## Nodes -/

theorem node?_put_self (h : l.all (· == "..") = false) : (t.put l node).node? l = some node := by
  simp [node?, put, h, Registry.find?_insert_self]

theorem node?_put_of_ne (h : l ≠ m) : (t.put l node).node? m = t.node? m := by
  simp only [node?, put, Registry.find?_insert_of_ne _ _ h]

theorem inside_of_look {name : String} (hname : isDots name = false) (h : m.look name = .ok l) :
    l.all (· == "..") = false := by
  simp only [isDots, Bool.or_eq_false_iff, beq_eq_false_iff_ne] at hname
  rw [Location.look, if_neg hname.1, if_neg hname.2] at h
  split at h
  · cases h
  · cases h
    simp [hname.2]

/-! ## What the operations do -/

theorem enter_eq_ok {name : String} :
    t.enter l name = .ok m ↔ l.look name = .ok m ∧ t.node? m = some .directory := by
  refine bind_eq_ok.trans ⟨fun ⟨inner, hlook, h⟩ => ?_, fun ⟨hlook, hnode⟩ => ⟨m, hlook, ?_⟩⟩
  · split at h
    · next hnode =>
      cases h
      exact ⟨hlook, hnode⟩
    all_goals cases h
  · simp only [hnode]
    rfl

theorem locate_eq_ok : t.locate p = .ok l ↔ p.check = .ok () ∧
    ∃ directory, t.walk [] p.names.dropLast = .ok directory ∧
      directory.look (p.names.getLast?.getD ".") = .ok l := by
  simp only [locate, follow, bind_eq_ok]
  constructor
  · rintro ⟨_, ⟨⟨⟩, hcheck, directory, hwalk, ⟨⟩⟩, hlook⟩
    exact ⟨hcheck, directory, hwalk, hlook⟩
  · rintro ⟨hcheck, directory, hwalk, hlook⟩
    exact ⟨_, ⟨⟨⟩, hcheck, directory, hwalk, rfl⟩, hlook⟩

/-- A file is read under the paths that lead to its location and end in no slash. -/
theorem content_eq_ok {content : ByteArray} : t.content p = .ok content ↔
    ∃ l, t.locate p = .ok l ∧ t.node? l = some (.file content) ∧ p.endsInSlash = false := by
  constructor
  · intro h
    obtain ⟨node, hfind, h⟩ := bind_eq_ok.1 h
    obtain ⟨⟨directory, name⟩, hfollow, hfind⟩ := bind_eq_ok.1 hfind
    obtain ⟨l, hlook, hfind⟩ := bind_eq_ok.1 hfind
    refine ⟨l, bind_eq_ok.2 ⟨_, hfollow, hlook⟩, ?_⟩
    split at hfind
    · cases hfind
    · cases hfind
      cases h
    · next hnode =>
      split at hfind
      · cases hfind
      · next hslash =>
        cases hfind
        cases h
        exact ⟨hnode, by simpa using hslash⟩
  · rintro ⟨l, hlocate, hnode, hslash⟩
    obtain ⟨⟨directory, name⟩, hfollow, hlook⟩ := bind_eq_ok.1 hlocate
    have hfind : t.find p = .ok (.file content) := by
      refine bind_eq_ok.2 ⟨_, hfollow, bind_eq_ok.2 ⟨l, hlook, ?_⟩⟩
      simp only [hnode, hslash, Bool.false_eq_true, if_false]
      rfl
    exact bind_eq_ok.2 ⟨_, hfind, rfl⟩

theorem text_of_content {text : String} (h : t.content p = .ok text.toUTF8) :
    t.text p = .ok text := by
  have hutf8 : String.fromUTF8? text.toUTF8 = some text := dif_pos text.isValidUTF8
  refine bind_eq_ok.2 ⟨_, h, ?_⟩
  rw [hutf8]
  rfl

theorem makeDirectory_ok (h : t.makeDirectory p = .ok t') :
    ∃ l, t.node? l = none ∧ t' = t.put l .directory := by
  obtain ⟨⟨directory, name⟩, -, h⟩ := bind_eq_ok.1 h
  dsimp only at h
  split at h
  · cases h
  obtain ⟨l, -, h⟩ := bind_eq_ok.1 h
  split at h
  · cases h
  · next hnone =>
    cases h
    exact ⟨l, hnone, rfl⟩

theorem write_ok {content : ByteArray} (h : t.write p content = .ok t') :
    ∃ l, t.locate p = .ok l ∧ p.endsInSlash = false ∧ l.all (· == "..") = false ∧
      t.node? l ≠ some .directory ∧ t' = t.put l (.file content) := by
  obtain ⟨⟨directory, name⟩, hfollow, h⟩ := bind_eq_ok.1 h
  dsimp only at h
  split at h
  · cases h
  next hnames =>
  obtain ⟨hname, hslash⟩ : isDots name = false ∧ p.endsInSlash = false := by simpa using hnames
  obtain ⟨l, hlook, h⟩ := bind_eq_ok.1 h
  refine ⟨l, bind_eq_ok.2 ⟨_, hfollow, hlook⟩, hslash, inside_of_look hname hlook, ?_⟩
  split at h
  · cases h
  all_goals
    next hnode =>
    cases h
    exact ⟨by simp [hnode], rfl⟩

/-! ## What stays -/

/-- Directories stay directories, and the files stay what they are, but for one location. -/
structure Keeps (except : Location → Prop) (t t' : FileTree) : Prop where
  directory : ∀ m, t.node? m = some .directory → t'.node? m = some .directory
  file : ∀ m, ¬except m → ∀ content,
    t'.node? m = some (.file content) ↔ t.node? m = some (.file content)

namespace Keeps

variable {except : Location → Prop}

theorem refl (except : Location → Prop) (t : FileTree) : Keeps except t t :=
  ⟨fun _ h => h, fun _ _ _ => Iff.rfl⟩

theorem trans (h : Keeps except t t') (h' : Keeps except t' t'') : Keeps except t t'' :=
  ⟨fun m hm => h'.directory m (h.directory m hm),
    fun m hm content => (h'.file m hm content).trans (h.file m hm content)⟩

theorem mono {except' : Location → Prop} (h : Keeps except t t') (hle : ∀ m, except m → except' m) :
    Keeps except' t t' :=
  ⟨h.directory, fun m hm => h.file m fun hexcept => hm (hle m hexcept)⟩

theorem put_directory (hnone : t.node? l = none) :
    Keeps (fun _ => False) t (t.put l .directory) := by
  have hinside : l.all (· == "..") = false := by
    cases h : l.all (· == "..") with
    | false => rfl
    | true => simp [node?, h] at hnone
  constructor
  · intro m hm
    by_cases hl : l = m
    · exact hl ▸ node?_put_self hinside
    · rwa [node?_put_of_ne hl]
  · intro m _ content
    by_cases hl : l = m
    · subst hl
      simp [node?_put_self hinside, hnone]
    · rw [node?_put_of_ne hl]

theorem put_file {content : ByteArray} (hfree : t.node? l ≠ some .directory) :
    Keeps (· = l) t (t.put l (.file content)) := by
  constructor
  · intro m hm
    have hl : l ≠ m := by
      rintro rfl
      exact hfree hm
    rwa [node?_put_of_ne hl]
  · intro m hm content
    rw [node?_put_of_ne (Ne.symm hm)]

theorem makeDirectory (h : t.makeDirectory p = .ok t') : Keeps (fun _ => False) t t' := by
  obtain ⟨l, hnone, rfl⟩ := makeDirectory_ok h
  exact put_directory hnone

theorem ensured (p : Path) (made : Except FileError FileTree)
    (h : ∀ t', made = .ok t' → Keeps (fun _ => False) t t') :
    Keeps (fun _ => False) t (t.ensured p made).1 := by
  cases made with
  | ok t' => exact h t' rfl
  | error e => exact refl _ t

theorem makeDirectories (t : FileTree) (ps : List Path) :
    Keeps (fun _ => False) t (t.makeDirectories ps).1 := by
  induction ps generalizing t with
  | nil => exact refl _ t
  | cons p around ih =>
    unfold FileTree.makeDirectories
    split
    · next hmissing =>
      have haround := ih t
      split
      · next t' hmade =>
        rw [hmade] at haround
        exact haround.trans (ensured p _ fun _ => makeDirectory)
      · next t' e hfailed =>
        rw [hfailed] at haround
        exact haround
    · exact ensured p _ fun _ => makeDirectory

/-! ### Paths -/

theorem walk (h : Keeps except t t') {names : List String} (hwalk : t.walk l names = .ok m) :
    t'.walk l names = .ok m := by
  induction names generalizing l with
  | nil => exact hwalk
  | cons name rest ih =>
    obtain ⟨inner, henter, hrest⟩ := bind_eq_ok.1 hwalk
    obtain ⟨hlook, hnode⟩ := enter_eq_ok.1 henter
    exact bind_eq_ok.2 ⟨inner, enter_eq_ok.2 ⟨hlook, h.directory inner hnode⟩, ih hrest⟩

theorem locate (h : Keeps except t t') (hlocate : t.locate p = .ok l) : t'.locate p = .ok l := by
  obtain ⟨hcheck, directory, hwalk, hlook⟩ := locate_eq_ok.1 hlocate
  exact locate_eq_ok.2 ⟨hcheck, directory, h.walk hwalk, hlook⟩

/-- A file is still read under its paths, unless they lead to an exempted location. -/
theorem content (h : Keeps except t t') {content : ByteArray} (hcontent : t.content p = .ok content)
    (hp : ∀ l, t.locate p = .ok l → ¬except l) : t'.content p = .ok content := by
  obtain ⟨l, hlocate, hnode, hslash⟩ := content_eq_ok.1 hcontent
  exact content_eq_ok.2 ⟨l, h.locate hlocate, (h.file l (hp l hlocate) content).2 hnode, hslash⟩

end Keeps

end FileTree

end StreamTap
