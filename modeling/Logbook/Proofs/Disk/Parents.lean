import Logbook.Proofs.Disk.Growth
import Logbook.Proofs.Template.Candidates
import Mathlib.Data.List.TakeWhile

/-!
# The folder of a path

The text above a path is cut off the text of the path, while a walk takes the path apart into names.
Both agree: the names of the text above are the names on the way to the last one, so whatever
folder the text above leads to is the one in which the path has its last name.

Results:
1. `ofText_names`: the names of a path, the last one included.
2. `parentText?_names`: the text above a path has the names on the way to the last one.
3. `walk_child`: a path ends in the folder that the text above leads to.
-/

namespace Logbook

/-! ## 1. Names -/

/-- The names in a text, without those that lead nowhere. -/
def namesOf (s : List Char) : List String :=
  withoutDots ((splitSlashes s).filter fun name => !name.isEmpty)

theorem namesOf_append (a b : List Char) :
    namesOf (a ++ '/' :: b) = namesOf a ++ namesOf b := by
  rw [namesOf, splitSlashes_append, List.filter_append, withoutDots, List.filter_append,
    List.map_append]
  rfl

theorem ofText_names (s : String) : (Path.ofText s).names = namesOf s.toList := by
  unfold Path.ofText namesOf
  generalize (splitSlashes s.toList).filter (fun name => !name.isEmpty) = names
  dsimp only
  cases hlast : names.getLast? with
  | none => simp [Path.names, List.getLast?_eq_none_iff.mp hlast, withoutDots]
  | some last =>
    obtain ⟨front, rfl⟩ := List.getLast?_eq_some_iff.mp hlast
    dsimp only
    split
    · simp [Path.names]
    · next hdots =>
      have hdot : last ≠ ['.'] := by
        rintro rfl
        exact hdots rfl
      simp [Path.names, withoutDots, hdot]

theorem ofText_absolute (s : String) :
    (Path.ofText s).absolute = (s.toList.head? == some '/') := by
  unfold Path.ofText
  dsimp only
  split
  · rfl
  · split <;> rfl

theorem ofText_slash (s : String) :
    (Path.ofText s).slash = (s.toList.getLast? == some '/') := by
  unfold Path.ofText
  dsimp only
  split
  · rfl
  · split <;> rfl

theorem ofText_last?_ne (s : String) : (Path.ofText s).last? ≠ some ".." := by
  unfold Path.ofText
  dsimp only
  split
  · simp
  · split
    · simp
    · next last _ hdots =>
      intro hlast
      have hup : last = ['.', '.'] := by
        rw [← String.toList_ofList (l := last), Option.some.inj hlast]
        rfl
      exact hdots (by rw [hup]; rfl)

/-- A text without slashes is a single name. -/
theorem ofText_last?_flat {s : String} (hflat : '/' ∉ s.toList) (hne : s.toList ≠ [])
    (hdots : isDots s.toList = false) : (Path.ofText s).last? = some s := by
  have hnames : [s.toList].filter (fun name => !name.isEmpty) = [s.toList] :=
    List.filter_cons_of_pos (by simpa using hne)
  simp [Path.ofText, splitSlashes_of_not_mem hflat, hnames, hdots]

theorem Target.path_last?_ne (target : Target) : target.path.last? ≠ some ".." := by
  cases target <;> exact ofText_last?_ne _

/-! ## 2. The text above a path -/

/-- A text as what is before its last slash, that slash included, and what comes after it. -/
theorem exists_front (s : List Char) :
    ∃ front name, s = front ++ name ∧ '/' ∉ name ∧
      (splitSlashes s).filter (fun name => !name.isEmpty) =
        (splitSlashes front).filter (fun name => !name.isEmpty) ++
          [name].filter (fun name => !name.isEmpty) ∧
      (front = [] ∨ ∃ above, front = above ++ ['/']) := by
  by_cases hmem : '/' ∈ s.reverse
  · obtain ⟨a, b, hs, ha⟩ := List.eq_append_cons_of_mem hmem
    have hs' : s = b.reverse ++ '/' :: a.reverse := by
      rw [← s.reverse_reverse, hs]
      simp
    have hno : '/' ∉ a.reverse := by simpa using ha
    refine ⟨b.reverse ++ ['/'], a.reverse, by simp [hs'], hno, ?_, .inr ⟨_, rfl⟩⟩
    rw [hs', splitSlashes_append, splitSlashes_append, splitSlashes_of_not_mem hno,
      List.filter_append, List.filter_append]
    simp [splitSlashes]
  · have hno : '/' ∉ s := by simpa using hmem
    refine ⟨[], s, rfl, hno, ?_, .inl rfl⟩
    rw [splitSlashes_of_not_mem hno]
    rfl

/-- A path that ends in a name, as a text: what is before the name, and the name. -/
theorem ofText_front {s last : String} (hlast : (Path.ofText s).last? = some last)
    (hslash : (Path.ofText s).slash = false) :
    ∃ front name, s.toList = front ++ name ∧ '/' ∉ name ∧ name ≠ [] ∧ isDots name = false ∧
      (front = [] ∨ ∃ above, front = above ++ ['/']) ∧ (Path.ofText s).folders = namesOf front := by
  obtain ⟨front, name, hs, hno, hsplit, hfront⟩ := exists_front s.toList
  have hne : name ≠ [] := by
    rintro rfl
    rcases hfront with rfl | ⟨above, rfl⟩
    · rw [String.toList_eq_nil_iff.mp hs] at hlast
      cases hlast
    · rw [ofText_slash, hs] at hslash
      simp at hslash
  have hnames : (splitSlashes s.toList).filter (fun name => !name.isEmpty) =
      (splitSlashes front).filter (fun name => !name.isEmpty) ++ [name] := by
    rw [hsplit, List.filter_cons_of_pos (by simpa using hne)]
    rfl
  simp only [Path.ofText, hnames, List.getLast?_concat] at hlast ⊢
  cases hdots : isDots name with
  | true => simp [hdots] at hlast
  | false => exact ⟨front, name, hs, hno, hne, hdots, hfront, by simp [namesOf]⟩

theorem namesOf_dropIdle (s : List Char) :
    namesOf (dropIdle s).reverse = namesOf s.reverse := by
  fun_induction dropIdle s with
  | case1 s ih =>
    have hnone : namesOf [] = [] := by decide
    rw [ih, List.reverse_cons, namesOf_append, hnone, List.append_nil]
  | case2 s ih =>
    have hdot : namesOf ['.'] = [] := by decide
    rw [ih, List.reverse_cons, List.reverse_cons, List.append_assoc]
    show _ = namesOf (s.reverse ++ '/' :: ['.'])
    rw [namesOf_append, hdot, List.append_nil]
  | case3 => rfl

theorem dropIdle_suffix (s : List Char) : dropIdle s <:+ s := by
  fun_induction dropIdle s with
  | case1 s ih => exact ih.trans (List.suffix_cons _ _)
  | case2 s ih => exact (ih.trans (List.suffix_cons _ _)).trans (List.suffix_cons _ _)
  | case3 => exact List.suffix_rfl

/-- A text without slashes names no folder above it. -/
theorem parentText?_flat {s parent : List Char} (h : '/' ∉ s) (hp : parentText? s = some parent) :
    parent = [] := by
  have hslash : '/' ∉ dropIdle s.reverse := fun hmem =>
    h (List.mem_reverse.1 ((dropIdle_suffix s.reverse).subset hmem))
  have hnone : (dropIdle s.reverse).dropWhile (· != '/') = [] := by
    rw [List.dropWhile_eq_nil_iff]
    exact fun c hc => bne_iff_ne.2 fun he => hslash (he ▸ hc)
  have hroot : (s.head? == some '/') = false :=
    beq_eq_false_iff_ne.2 fun he => h (List.mem_of_head? he)
  rw [parentText?] at hp
  split at hp
  · cases hp
  · rw [hnone, hroot] at hp
    exact (Option.some.inj hp).symm

/-- Nothing is dropped from a text that ends in a name. -/
theorem dropIdle_eq_self {name : List Char} (hne : name ≠ []) (hslash : '/' ∉ name)
    (hdots : isDots name = false) (front : List Char) :
    dropIdle (front ++ name).reverse = (front ++ name).reverse := by
  rw [List.reverse_append]
  cases hname : name.reverse with
  | nil => exact absurd (List.reverse_eq_nil_iff.mp hname) hne
  | cons c rest =>
    rw [← List.mem_reverse, hname, List.mem_cons, not_or] at hslash
    rw [List.cons_append]
    unfold dropIdle
    split
    · next heq => exact absurd (List.cons.inj heq).1.symm hslash.1
    · next heq =>
      obtain ⟨rfl, htail⟩ := List.cons.inj heq
      cases rest with
      | nil =>
        rw [List.reverse_eq_iff.mp hname] at hdots
        cases hdots
      | cons d rest =>
        rw [List.mem_cons, not_or] at hslash
        exact absurd (List.cons.inj htail).1.symm hslash.2.1
    · rfl

/-- The text above a path has the names on the way to the last one. -/
theorem parentText?_names {s last : String} (hlast : (Path.ofText s).last? = some last)
    (hslash : (Path.ofText s).slash = false) :
    ∃ parent, parentText? s.toList = some parent ∧ namesOf parent = (Path.ofText s).folders ∧
      (parent.head? == some '/') = (Path.ofText s).absolute := by
  obtain ⟨front, name, hs, hno, hne, hdots, hfront, hfolders⟩ := ofText_front hlast hslash
  have hwhile : (front ++ name).reverse.dropWhile (· != '/') = front.reverse := by
    have hall : ∀ c ∈ name.reverse, (c != '/') = true := by
      intro c hc
      rw [bne_iff_ne]
      rintro rfl
      exact hno (List.mem_reverse.mp hc)
    rw [List.reverse_append, List.dropWhile_append_of_pos hall]
    rcases hfront with rfl | ⟨above, rfl⟩
    · rfl
    · simp
  have hidle := namesOf_dropIdle front.reverse
  rw [List.reverse_reverse] at hidle
  rw [parentText?, hs, dropIdle_eq_self hne hno hdots]
  split
  · next hnil => simp [hne] at hnil
  rw [hwhile, ofText_absolute, hs, hfolders, ← hidle]
  split
  · next hnone =>
    refine ⟨_, rfl, ?_, ?_⟩
    · rw [hnone]
      split <;> rfl
    · split
      · next hrooted => rw [hrooted]; rfl
      · next hrooted => rw [Bool.eq_false_iff.mpr hrooted]; rfl
  · next hsome =>
    refine ⟨_, rfl, rfl, ?_⟩
    -- what is left of the text before the name begins as that text does
    obtain ⟨dropped, hdropped⟩ := dropIdle_suffix front.reverse
    have hfront' : front = (dropIdle front.reverse).reverse ++ dropped.reverse := by
      rw [← List.reverse_append, hdropped, List.reverse_reverse]
    have hhead : (front ++ name).head? = (dropIdle front.reverse).reverse.head? := by
      conv => lhs; rw [hfront', List.append_assoc]
      exact List.head?_append_of_ne_nil _ (by simpa using hsome)
    rw [hhead]

/-! ## 3. The last name of a path -/

namespace Disk

variable {disk : Disk}

/-- A leg through some folders and then through more of them. -/
theorem enter_append (disk : Disk) (p : Place) (names more : List String) :
    disk.enter p (names ++ more) =
      match disk.enter p names with
      | .done q => disk.enter q more
      | .refused r => .refused r
      | .link target rest => .link target (rest ++ more) := by
  induction names generalizing p with
  | nil => rfl
  | cons name names ih =>
    rw [List.cons_append, enter, enter]
    split
    · exact ih _
    split
    · rfl
    split
    · rfl
    · exact ih _
    · rfl
    · rfl

/-- The last name of a path as one more leg of the way, if it leads to a folder. -/
theorem enter_folder {p q : Place} {name : String} {slash : Bool} (hup : name ≠ "..")
    (h : disk.finish .content p name slash = .done (.node q .folder)) :
    disk.enter p [name] = .done q := by
  rw [finish, if_neg (by simp)] at h
  rw [enter, if_neg hup]
  split at h
  · cases h
  next hlong =>
  rw [if_neg hlong]
  split at h
  · cases h
  · next hnode =>
    cases h
    rfl
  · split at h <;> cases h
  · split at h <;> cases h

/-- The last name of a path as one more leg of the way, if it is a link. -/
theorem enter_link {p : Place} {name : String} {slash : Bool} {target : Target}
    {rest : List String} (hup : name ≠ "..")
    (h : disk.finish .content p name slash = .link target rest) :
    disk.enter p [name] = .link target [] := by
  rw [finish, if_neg (by simp)] at h
  rw [enter, if_neg hup]
  split at h
  · cases h
  next hlong =>
  rw [if_neg hlong]
  split at h
  · cases h
  · cases h
  · split at h <;> cases h
  · next hnode =>
    cases h
    rfl

theorem walkFrom_child {links : Nat} {p q : Place} {parent path : Path} {last : String}
    {stop : Stop} (hfolders : path.folders = parent.names) (hup : parent.last? ≠ some "..")
    (hparent : disk.walkFrom .content links p parent = .ok (.node q .folder))
    (hlast : path.last? = some last)
    (hf : disk.finish .entry q last path.slash = .done stop) :
    disk.walkFrom .entry links p path = .ok stop := by
  -- on the links that are left: both walks follow the same ones until the folder is reached
  induction links using Nat.strongRecOn generalizing p parent path with
  | ind links ih =>
    rw [walkFrom.eq_def] at hparent ⊢
    dsimp only at hparent ⊢
    rw [hfolders, Path.names, enter_append]
    cases he : disk.enter p parent.folders with
    | refused r => simp [he] at hparent
    | link target rest =>
      cases links with
      | zero => simp [he] at hparent
      | succ links =>
        simp only [he] at hparent ⊢
        refine ih links (Nat.lt_succ_self _) ?_ ?_ hparent hlast hf
        · exact (List.append_assoc _ _ _).symm
        · exact hup
    | done p₁ =>
      simp only [he] at hparent ⊢
      cases hl : parent.last? with
      | none =>
        simp only [hl] at hparent
        obtain rfl := (Stop.node.inj (Except.ok.inj hparent)).1
        simp only [Option.toList, enter, hlast, hf]
      | some name =>
        have hname : name ≠ ".." := fun heq => hup (heq ▸ hl)
        simp only [hl, Option.toList] at hparent ⊢
        cases hfin : disk.finish .content p₁ name parent.slash with
        | refused r => simp [hfin] at hparent
        | done stop' =>
          simp only [hfin] at hparent
          obtain rfl := Except.ok.inj hparent
          rw [enter_folder hname hfin]
          simp only [hlast, hf]
        | link target rest =>
          rw [enter_link hname hfin]
          cases links with
          | zero => simp [hfin] at hparent
          | succ links =>
            simp only [hfin] at hparent ⊢
            refine ih links (Nat.lt_succ_self _) ?_ ?_ hparent hlast hf
            · exact List.append_nil _
            · exact target.path_last?_ne

/-- Where the text above a path leads to a folder, the path ends in that folder. -/
theorem walk_child {parent path : Path} {q : Place} {last : String} {stop : Stop}
    (hfolders : path.folders = parent.names) (habsolute : path.absolute = parent.absolute)
    (hup : parent.last? ≠ some "..") (hparent : disk.walk .content parent = .ok (.node q .folder))
    (hlast : path.last? = some last)
    (hf : disk.finish .entry q last path.slash = .done stop) :
    disk.walk .entry path = .ok stop := by
  rw [walk, habsolute]
  exact walkFrom_child hfolders hup hparent hlast hf

end Disk

end Logbook
