/-
# Removing a directory tree while others write into it

A file tree whose entries lie in directories, the operations of a file system on it, and the
recursive removal of a tree (`shutil.rmtree`) as a machine that takes one file operation a step.

The removal lists a directory when it enters it, removes what it has listed, one entry after the
other, and then the directory itself.  What others create in a directory after it has been listed
is not visited; the directory is not empty then, so that its removal fails, and with it the whole
removal.  An entry that others have removed meanwhile ends it in the same way.

* `Tree`: entries below a root, each of them in a directory;
* `step`: one file operation of the removal, `Frame` being a directory that it is in;
* `Accounts`: what the removal has listed is what there is, so that it leaves nothing
  (`Accounts.eq_empty`);
* `Ahead`: the path lies where the removal has still to go, which is where others may create
  (`Accounts.mono`).
-/
import IngestFarm.Dict

namespace TreeRemoval

variable {κ β : Type} [DecidableEq κ]

/-! ## File trees -/

/-- A directory, or a regular file with its contents. -/
inductive Node (β : Type) where
  | dir
  | file (data : β)

/-- The entries of a file tree under their paths from its root; the root is an entry itself, if it
exists.  Whatever exists lies in a directory. -/
structure Tree (κ β : Type) [DecidableEq κ] where
  entries : Dict (List κ) (Node β)
  inDir : ∀ p k, p ++ [k] ∈ entries → entries.lookup p = some .dir

namespace Tree

variable {t t' : Tree κ β} {p q : List κ}

/-- Nothing at all, not even the root. -/
def empty : Tree κ β := ⟨∅, fun _ _ h => absurd h (AList.notMem_empty _)⟩

/-- What is at a path. -/
def kind (t : Tree κ β) (p : List κ) : Option (Node β) := t.entries.lookup p

/-- The contents of a file. -/
def data (t : Tree κ β) (p : List κ) : Option β :=
  match t.kind p with
  | some (.file d) => some d
  | _ => none

/-- The path is that of a directory. -/
def isDir (t : Tree κ β) (p : List κ) : Bool :=
  match t.kind p with
  | some .dir => true
  | _ => false

/-- The directory of a path is there; that of the root always is. -/
def hasParent (t : Tree κ β) (p : List κ) : Bool := p = [] || t.isDir p.dropLast

/-- `os.scandir`, in the order of the entries of the tree. -/
def children (t : Tree κ β) (p : List κ) : List κ :=
  t.entries.keys.filterMap fun q => if q ≠ [] ∧ q.dropLast = p then q.getLast? else none

theorem isDir_iff : t.isDir p = true ↔ t.kind p = some .dir := by
  unfold isDir
  rcases t.kind p with _ | _ | d <;> simp

theorem hasParent_iff : t.hasParent p = true ↔ p = [] ∨ t.kind p.dropLast = some .dir := by
  unfold hasParent
  rw [Bool.or_eq_true, decide_eq_true_eq, isDir_iff]

theorem mem_iff_kind : p ∈ t.entries ↔ t.kind p ≠ none := by
  rw [← AList.lookup_isSome, Option.isSome_iff_ne_none]
  rfl

/-- A directory is in the tree. -/
theorem mem_of_isDir (h : t.isDir p = true) : p ∈ t.entries := by
  rw [mem_iff_kind, isDir_iff.mp h]
  exact Option.some_ne_none _

/-- What has something in it is a directory. -/
theorem isDir_of_child {k : κ} (h : p ++ [k] ∈ t.entries) : t.isDir p = true :=
  isDir_iff.mpr (t.inDir p k h)

/-- Only files have data. -/
theorem data_eq_some {d : β} : t.data p = some d ↔ t.kind p = some (.file d) := by
  unfold data
  rcases t.kind p with _ | _ | d' <;> simp

@[simp] theorem mem_children {k : κ} : k ∈ t.children p ↔ p ++ [k] ∈ t.entries := by
  unfold children
  rw [List.mem_filterMap]
  constructor
  · rintro ⟨q, hq, hk⟩
    split_ifs at hk with hcond
    obtain ⟨hne, rfl⟩ := hcond
    rw [List.getLast?_eq_some_getLast hne, Option.some.injEq] at hk
    rw [← hk, List.dropLast_append_getLast hne]
    exact AList.mem_keys.mpr hq
  · intro h
    exact ⟨p ++ [k], AList.mem_keys.mp h, by simp⟩

/-- A listing names nothing twice. -/
theorem nodup_children (t : Tree κ β) (p : List κ) : (t.children p).Nodup := by
  refine (AList.keys_nodup t.entries).filterMap ?_
  intro q r k hq hr
  rw [Option.mem_def] at hq hr
  split_ifs at hq hr with hcond hcond'
  rw [List.getLast?_eq_some_getLast hcond.1, Option.some.injEq] at hq
  rw [List.getLast?_eq_some_getLast hcond'.1, Option.some.injEq] at hr
  rw [← List.dropLast_append_getLast hcond.1, ← List.dropLast_append_getLast hcond'.1, hq, hr,
    hcond.2, hcond'.2]

/-- An empty listing. -/
theorem children_eq_nil : t.children p = [] ↔ ∀ k, p ++ [k] ∉ t.entries := by
  rw [List.eq_nil_iff_forall_not_mem]
  simp only [mem_children]

/-- Every prefix of a path in the tree is a directory. -/
theorem isDir_of_isPrefix (h : q ∈ t.entries) (hpq : p <+: q) (hne : p ≠ q) : t.isDir p = true := by
  obtain ⟨r, rfl⟩ := hpq
  induction r using List.reverseRecOn with
  | nil => exact absurd (List.append_nil p).symm hne
  | append_singleton r k ih =>
    rw [← List.append_assoc] at h
    have hdir := isDir_of_child h
    by_cases hr : r = []
    · subst hr
      rwa [List.append_nil] at hdir
    · refine ih (mem_of_isDir hdir) fun heq => hr ?_
      exact List.append_right_eq_self.mp heq.symm

theorem mem_of_prefix (h : q ∈ t.entries) (hpq : p <+: q) : p ∈ t.entries := by
  by_cases hne : p = q
  · rwa [hne]
  · exact mem_of_isDir (isDir_of_isPrefix h hpq hne)

/-! ## Operations -/

/-- Make a directory or write a file: its directory must be there, and it must not be a directory
itself. -/
def put (p : List κ) (x : Node β) (t : Tree κ β) : Option (Tree κ β) :=
  if h : t.hasParent p = true ∧ t.isDir p = false then
    some {
      entries := Dict.set p x t.entries
      inDir := by
        intro q k hk
        have hold : t.kind q = some .dir := by
          rcases (Dict.mem_set _ _ _ _).mp hk with rfl | hk
          · rcases hasParent_iff.mp h.1 with hnil | hdir
            · exact absurd hnil (by simp)
            · rwa [List.dropLast_concat] at hdir
          · exact t.inDir q k hk
        rw [Dict.lookup_set, if_neg]
        · exact hold
        · rintro rfl
          rw [isDir_iff.mpr hold] at h
          exact absurd h.2 (by decide) }
  else none

/-- Remove an entry that is empty. -/
def erase (p : List κ) (t : Tree κ β) (h : t.children p = []) : Tree κ β where
  entries := t.entries.erase p
  inDir := by
    intro q k hk
    have hold : q ++ [k] ∈ t.entries := (AList.mem_erase.mp hk).2
    rw [Dict.lookup_erase, if_neg]
    · exact t.inDir q k hold
    · rintro rfl
      exact children_eq_nil.mp h k hold

/-- A file has nothing in it. -/
theorem children_of_data (h : (t.data p).isSome = true) : t.children p = [] := by
  obtain ⟨d, hd⟩ := Option.isSome_iff_exists.mp h
  rw [children_eq_nil]
  intro k hk
  have hdir : t.kind p = some .dir := t.inDir p k hk
  rw [data_eq_some.mp hd] at hdir
  cases hdir

/-- `os.unlink`, of a file only. -/
def unlink (p : List κ) (t : Tree κ β) : Option (Tree κ β) :=
  if h : (t.data p).isSome = true then some (t.erase p (children_of_data h)) else none

/-- `os.rmdir`, of an empty directory only. -/
def rmdir (p : List κ) (t : Tree κ β) : Option (Tree κ β) :=
  if h : t.isDir p = true ∧ t.children p = [] then some (t.erase p h.2) else none

/-- Writing one place leaves the others. -/
theorem kind_put {x : Node β} (h : t.put p x = some t') (q : List κ) :
    t'.kind q = if q = p then some x else t.kind q := by
  unfold put at h
  split_ifs at h
  rw [← Option.some.inj h]
  exact Dict.lookup_set _ _ _ _

/-- A place is written in a directory, and never over one. -/
theorem put_eq_some {x : Node β} (h : t.put p x = some t') :
    t.hasParent p = true ∧ t.isDir p = false := by
  unfold put at h
  split_ifs at h with hcond
  exact hcond

/-- `os.mkdir`: nothing of that name may be there. -/
def mkdir (p : List κ) (t : Tree κ β) : Option (Tree κ β) :=
  if t.kind p = none then t.put p .dir else none

/-- A directory is made where nothing was. -/
theorem mkdir_eq_some (h : t.mkdir p = some t') : t.kind p = none ∧ t.put p .dir = some t' := by
  unfold mkdir at h
  split_ifs at h with hnone
  exact ⟨hnone, h⟩

/-- What `mkdir` leaves. -/
theorem kind_mkdir (h : t.mkdir p = some t') (q : List κ) :
    t'.kind q = if q = p then some .dir else t.kind q := by
  exact kind_put (mkdir_eq_some h).2 q

/-- What the removal of an empty place leaves. -/
theorem kind_erase (h : t.children p = []) (q : List κ) :
    (t.erase p h).kind q = if q = p then none else t.kind q := Dict.lookup_erase _ _ _

/-- What `unlink` leaves. -/
theorem kind_unlink (h : t.unlink p = some t') (q : List κ) :
    t'.kind q = if q = p then none else t.kind q := by
  unfold unlink at h
  split_ifs at h
  rw [← Option.some.inj h]
  exact kind_erase _ q

/-- What `rmdir` leaves. -/
theorem kind_rmdir (h : t.rmdir p = some t') (q : List κ) :
    t'.kind q = if q = p then none else t.kind q := by
  unfold rmdir at h
  split_ifs at h
  rw [← Option.some.inj h]
  exact kind_erase _ q

end Tree

/-! ## The removal -/

/-- A directory that the removal is in, and the names listed there that it has not yet come to. -/
structure Frame (κ : Type) where
  dir : List κ
  todo : List κ

/-- One file operation of `shutil.rmtree`; the innermost directory comes first.  `names` is what
`os.scandir` gives where a directory is entered, in any order.  A failed operation ends the whole
removal: no directory is left to do. -/
def step (t : Tree κ β) (frames : List (Frame κ)) (names : List κ) :
    Option (Tree κ β × List (Frame κ)) :=
  match frames with
  | [] => none
  | ⟨dir, []⟩ :: rest =>
    match t.rmdir dir with
    | some t' => some (t', rest)
    | none => some (t, [])
  | ⟨dir, k :: todo⟩ :: rest =>
    if t.isDir (dir ++ [k]) = true then
      if names.Perm (t.children (dir ++ [k])) then
        some (t, ⟨dir ++ [k], names⟩ :: ⟨dir, todo⟩ :: rest)
      else none
    else
      match t.unlink (dir ++ [k]) with
      | some t' => some (t', ⟨dir, todo⟩ :: rest)
      | none => some (t, [])

/-- The path is a listed entry or lies below one: the removal will come to it. -/
def Ahead (frames : List (Frame κ)) (p : List κ) : Prop :=
  ∃ f ∈ frames, ∃ k ∈ f.todo, f.dir ++ [k] <+: p

/-- The path itself is listed. -/
def Listed (frames : List (Frame κ)) (p : List κ) : Prop :=
  ∃ f ∈ frames, ∃ k ∈ f.todo, f.dir ++ [k] = p

/-- One directory of the removal lies in the other, through a name that is not ahead. -/
def Inside (g f : Frame κ) : Prop := ∃ k, k ∉ f.todo ∧ f.dir ++ [k] <+: g.dir

/-- A frame inside another one is deeper. -/
theorem Inside.length_lt {κ : Type} {f g : Frame κ} (h : Inside g f) :
    f.dir.length < g.dir.length := by
  obtain ⟨k, -, hk⟩ := h
  have hle := hk.length_le
  rw [List.length_append, List.length_singleton] at hle
  omega

/-- A listed name of the outer directory does not lead to the inner one, nor into it. -/
theorem Inside.not_isPrefix {κ : Type} {f g : Frame κ} (h : Inside g f) {k : κ} (hk : k ∈ f.todo)
    {p : List κ} (hp : g.dir <+: p) : ¬ f.dir ++ [k] <+: p := by
  intro hkp
  obtain ⟨m, hm, hmg⟩ := h
  have hmp := hmg.trans hp
  have hlen : (f.dir ++ [m]).length = (f.dir ++ [k]).length := by simp
  have heq : f.dir ++ [m] = f.dir ++ [k] :=
    (List.prefix_of_prefix_length_le hmp hkp hlen.le).eq_of_length hlen
  rw [List.append_cancel_left_eq, List.cons.injEq] at heq
  exact hm (heq.1 ▸ hk)

/-- **The removal knows of everything there is.**  Its directories are there, one inside the
other, with the names listed in them, and any other entry lies ahead. -/
structure Accounts (t : Tree κ β) (frames : List (Frame κ)) : Prop where
  isDir : ∀ f ∈ frames, t.isDir f.dir = true
  nodup : ∀ f ∈ frames, f.todo.Nodup
  listed : ∀ f ∈ frames, ∀ k ∈ f.todo, f.dir ++ [k] ∈ t.entries
  nested : frames.Pairwise Inside
  all : ∀ p ∈ t.entries, (∃ f ∈ frames, f.dir = p) ∨ Ahead frames p

section Removal

variable {t t' : Tree κ β} {frames frames' : List (Frame κ)} {names : List κ}

/-- A tree that has just been listed. -/
theorem accounts_start (h : t.isDir [] = true) (hnames : names.Perm (t.children [])) :
    Accounts t [⟨[], names⟩] where
  isDir := by
    intro f hf
    rw [List.mem_singleton.mp hf]
    exact h
  nodup := by
    intro f hf
    rw [List.mem_singleton.mp hf, hnames.nodup_iff]
    exact Tree.nodup_children _ _
  listed := by
    intro f hf k hk
    rw [List.mem_singleton.mp hf] at hk ⊢
    exact Tree.mem_children.mp (hnames.mem_iff.mp hk)
  nested := List.pairwise_singleton _ _
  all := by
    intro p hp
    cases p with
    | nil => exact Or.inl ⟨_, List.mem_singleton_self _, rfl⟩
    | cons k p =>
      refine Or.inr ⟨_, List.mem_singleton_self _, k, ?_, ⟨p, rfl⟩⟩
      exact hnames.mem_iff.mpr (Tree.mem_children.mpr (Tree.mem_of_prefix hp ⟨p, rfl⟩))

/-- **At its end nothing is left.** -/
theorem Accounts.eq_empty (h : Accounts t []) (p : List κ) : p ∉ t.entries := by
  intro hp
  rcases h.all p hp with ⟨f, hf, _⟩ | ⟨f, hf, _⟩ <;> exact absurd hf List.not_mem_nil

/-- **What others may do**: create ahead of the removal, and leave what it has listed. -/
theorem Accounts.mono (h : Accounts t frames)
    (hdirs : ∀ p, t.isDir p = true → t'.isDir p = true)
    (hlisted : ∀ p, Listed frames p → p ∈ t.entries → p ∈ t'.entries)
    (hnew : ∀ p ∈ t'.entries, p ∈ t.entries ∨ Ahead frames p) : Accounts t' frames where
  isDir := fun f hf => hdirs _ (h.isDir f hf)
  nodup := h.nodup
  listed := fun f hf k hk => hlisted _ ⟨f, hf, k, hk, rfl⟩ (h.listed f hf k hk)
  nested := h.nested
  all := fun p hp => (hnew p hp).elim (h.all p) Or.inr

/-- The innermost directory is empty once its names have been removed. -/
theorem Accounts.children_eq_nil {dir : List κ} {rest : List (Frame κ)}
    (h : Accounts t (⟨dir, []⟩ :: rest)) : t.children dir = [] := by
  have hinside := (List.pairwise_cons.mp h.nested).1
  rw [Tree.children_eq_nil]
  intro k hk
  rcases h.all _ hk with ⟨f, hf, heq⟩ | ⟨f, hf, m, hm, hprefix⟩
  · -- The directories of the removal are no deeper than this one.
    have hlen := congrArg List.length heq
    rw [List.length_append, List.length_singleton] at hlen
    rcases List.mem_cons.mp hf with rfl | hf
    · dsimp only at hlen
      omega
    · have hlt := (hinside f hf).length_lt
      dsimp only at hlt
      omega
  · rcases List.mem_cons.mp hf with rfl | hf
    · exact absurd hm List.not_mem_nil
    · exact (hinside f hf).not_isPrefix hm ⟨[k], rfl⟩ hprefix

/-- The removal of the innermost directory. -/
theorem Accounts.leave {dir : List κ} {rest : List (Frame κ)}
    (h : Accounts t (⟨dir, []⟩ :: rest))
    (hkind : ∀ q, t'.kind q = if q = dir then none else t.kind q) : Accounts t' rest := by
  have hinside := (List.pairwise_cons.mp h.nested).1
  have hmem : ∀ q, q ∈ t'.entries ↔ q ≠ dir ∧ q ∈ t.entries := by
    intro q
    rw [Tree.mem_iff_kind, Tree.mem_iff_kind, hkind]
    by_cases hq : q = dir <;> simp [hq]
  constructor
  · intro f hf
    have hlt := (hinside f hf).length_lt
    rw [Tree.isDir_iff, hkind, if_neg]
    · exact Tree.isDir_iff.mp (h.isDir f (List.mem_cons_of_mem _ hf))
    · rintro rfl
      exact absurd hlt (lt_irrefl _)
  · exact fun f hf => h.nodup f (List.mem_cons_of_mem _ hf)
  · intro f hf k hk
    refine (hmem _).mpr ⟨fun heq => ?_, h.listed f (List.mem_cons_of_mem _ hf) k hk⟩
    exact (hinside f hf).not_isPrefix hk (List.prefix_refl _) ⟨[], by simpa using heq⟩
  · exact (List.pairwise_cons.mp h.nested).2
  · intro p hp
    obtain ⟨hne, hp⟩ := (hmem p).mp hp
    rcases h.all p hp with ⟨f, hf, heq⟩ | ⟨f, hf, k, hk, hprefix⟩
    · rcases List.mem_cons.mp hf with rfl | hf
      · exact absurd heq.symm hne
      · exact Or.inl ⟨f, hf, heq⟩
    · rcases List.mem_cons.mp hf with rfl | hf
      · exact absurd hk List.not_mem_nil
      · exact Or.inr ⟨f, hf, k, hk, hprefix⟩

/-- The innermost directory has one name less to do, and what lay ahead through that name is
accounted for in another way. -/
theorem Accounts.next {dir : List κ} {k : κ} {todo : List κ} {rest : List (Frame κ)}
    (h : Accounts t (⟨dir, k :: todo⟩ :: rest))
    (hkind : ∀ q, q ≠ dir ++ [k] → t'.kind q = t.kind q)
    (hgone : ∀ p ∈ t'.entries, ¬ dir ++ [k] <+: p) : Accounts t' (⟨dir, todo⟩ :: rest) := by
  have hinside := (List.pairwise_cons.mp h.nested).1
  have htop := List.mem_cons_self (a := (⟨dir, k :: todo⟩ : Frame κ)) (l := rest)
  have hnodup := List.nodup_cons.mp (h.nodup _ htop)
  have hother : ∀ f ∈ rest, Inside ⟨dir, k :: todo⟩ f := hinside
  -- What changes is the one name; every other entry and directory is as it was.
  have hkept : ∀ q, q ≠ dir ++ [k] → q ∈ t.entries → q ∈ t'.entries := by
    intro q hq hmem
    rw [Tree.mem_iff_kind, hkind q hq]
    exact Tree.mem_iff_kind.mp hmem
  have hdirs : ∀ q, q ≠ dir ++ [k] → t.isDir q = true → t'.isDir q = true := by
    intro q hq hdir
    rw [Tree.isDir_iff, hkind q hq]
    exact Tree.isDir_iff.mp hdir
  constructor
  · intro f hf
    rcases List.mem_cons.mp hf with rfl | hf
    · exact hdirs dir (fun heq => by simpa using congrArg List.length heq) (h.isDir _ htop)
    · refine hdirs _ (fun heq => ?_) (h.isDir f (List.mem_cons_of_mem _ hf))
      have hlt := (hother f hf).length_lt
      rw [heq, List.length_append] at hlt
      dsimp only at hlt
      omega
  · intro f hf
    rcases List.mem_cons.mp hf with rfl | hf
    · exact hnodup.2
    · exact h.nodup f (List.mem_cons_of_mem _ hf)
  · intro f hf m hm
    rcases List.mem_cons.mp hf with rfl | hf
    · refine hkept _ (fun heq => ?_) (h.listed _ htop m (List.mem_cons_of_mem _ hm))
      rw [List.append_cancel_left_eq, List.cons.injEq] at heq
      exact hnodup.1 (heq.1 ▸ hm)
    · refine hkept _ (fun heq => ?_) (h.listed f (List.mem_cons_of_mem _ hf) m hm)
      refine (hother f hf).not_isPrefix hm (p := dir ++ [k]) ⟨[k], rfl⟩ ?_
      rw [heq]
  · exact List.pairwise_cons.mpr ⟨hinside, (List.pairwise_cons.mp h.nested).2⟩
  · intro p hp
    have hno := hgone p hp
    have hold : p ∈ t.entries := by
      rw [Tree.mem_iff_kind, ← hkind p fun heq => hno (heq ▸ List.prefix_refl _)]
      exact Tree.mem_iff_kind.mp hp
    -- What lay ahead through this name is gone, so it lies ahead in another way.
    rcases h.all p hold with ⟨f, hf, heq⟩ | ⟨f, hf, m, hm, hprefix⟩
    · rcases List.mem_cons.mp hf with rfl | hf
      · exact Or.inl ⟨_, List.mem_cons_self, heq⟩
      · exact Or.inl ⟨f, List.mem_cons_of_mem _ hf, heq⟩
    · rcases List.mem_cons.mp hf with rfl | hf
      · rcases List.mem_cons.mp hm with rfl | hm
        · exact absurd hprefix hno
        · exact Or.inr ⟨_, List.mem_cons_self, m, hm, hprefix⟩
      · exact Or.inr ⟨f, List.mem_cons_of_mem _ hf, m, hm, hprefix⟩

/-- The removal enters a directory that it has listed. -/
theorem Accounts.enter {dir : List κ} {k : κ} {todo : List κ} {rest : List (Frame κ)}
    (h : Accounts t (⟨dir, k :: todo⟩ :: rest)) (hdir : t.isDir (dir ++ [k]) = true)
    (hnames : names.Perm (t.children (dir ++ [k]))) :
    Accounts t (⟨dir ++ [k], names⟩ :: ⟨dir, todo⟩ :: rest) := by
  have hinside := (List.pairwise_cons.mp h.nested).1
  have htop := List.mem_cons_self (a := (⟨dir, k :: todo⟩ : Frame κ)) (l := rest)
  have hnodup := List.nodup_cons.mp (h.nodup _ htop)
  constructor
  · intro f hf
    rcases List.mem_cons.mp hf with rfl | hf
    · exact hdir
    · rcases List.mem_cons.mp hf with rfl | hf
      · exact h.isDir ⟨dir, k :: todo⟩ htop
      · exact h.isDir f (List.mem_cons_of_mem _ hf)
  · intro f hf
    rcases List.mem_cons.mp hf with rfl | hf
    · exact hnames.nodup_iff.mpr (Tree.nodup_children _ _)
    · rcases List.mem_cons.mp hf with rfl | hf
      · exact hnodup.2
      · exact h.nodup f (List.mem_cons_of_mem _ hf)
  · intro f hf m hm
    rcases List.mem_cons.mp hf with rfl | hf
    · exact Tree.mem_children.mp (hnames.mem_iff.mp hm)
    · rcases List.mem_cons.mp hf with rfl | hf
      · exact h.listed ⟨dir, k :: todo⟩ htop m (List.mem_cons_of_mem _ hm)
      · exact h.listed f (List.mem_cons_of_mem _ hf) m hm
  · refine List.pairwise_cons.mpr ⟨fun f hf => ?_,
      List.pairwise_cons.mpr ⟨hinside, (List.pairwise_cons.mp h.nested).2⟩⟩
    rcases List.mem_cons.mp hf with rfl | hf
    · exact ⟨k, hnodup.1, List.prefix_refl _⟩
    · obtain ⟨m, hm, hprefix⟩ := hinside f hf
      exact ⟨m, hm, hprefix.trans ⟨[k], rfl⟩⟩
  · intro p hp
    rcases h.all p hp with ⟨f, hf, heq⟩ | ⟨f, hf, m, hm, hprefix⟩
    · rcases List.mem_cons.mp hf with rfl | hf
      · exact Or.inl ⟨⟨dir, todo⟩, List.mem_cons_of_mem _ List.mem_cons_self, heq⟩
      · exact Or.inl ⟨f, List.mem_cons_of_mem _ (List.mem_cons_of_mem _ hf), heq⟩
    · rcases List.mem_cons.mp hf with rfl | hf
      · rcases List.mem_cons.mp hm with rfl | hm
        · -- The entry is the directory itself, or lies below one of the names in it.
          obtain ⟨q, rfl⟩ := hprefix
          cases q with
          | nil => exact Or.inl ⟨_, List.mem_cons_self, (List.append_nil _).symm⟩
          | cons c q =>
            refine Or.inr ⟨_, List.mem_cons_self, c, ?_, ⟨q, by simp⟩⟩
            refine hnames.mem_iff.mpr (Tree.mem_children.mpr ?_)
            exact Tree.mem_of_prefix hp ⟨q, by simp⟩
        · exact Or.inr ⟨⟨dir, todo⟩, List.mem_cons_of_mem _ List.mem_cons_self, m, hm, hprefix⟩
      · exact Or.inr ⟨f, List.mem_cons_of_mem _ (List.mem_cons_of_mem _ hf), m, hm, hprefix⟩

/-- **One operation of the removal** works, and the removal knows of everything afterwards. -/
theorem Accounts.step (h : Accounts t frames) (hstep : step t frames names = some (t', frames')) :
    Accounts t' frames' := by
  rcases frames with _ | ⟨⟨dir, _ | ⟨k, todo⟩⟩, rest⟩
  · cases hstep
  -- Nothing left to do in the innermost directory: it is empty, so its `rmdir` works.
  · simp only [TreeRemoval.step] at hstep
    have htop := h.isDir _ List.mem_cons_self
    have hremoved : ∃ u, t.rmdir dir = some u := by
      unfold Tree.rmdir
      exact ⟨_, dif_pos ⟨htop, h.children_eq_nil⟩⟩
    obtain ⟨u, hu⟩ := hremoved
    rw [hu] at hstep
    cases hstep
    exact h.leave (Tree.kind_rmdir hu)
  · simp only [TreeRemoval.step] at hstep
    have hlisted := h.listed _ List.mem_cons_self k List.mem_cons_self
    split_ifs at hstep with hdir hnames
    · cases hstep
      exact h.enter hdir hnames
    -- An entry that is no directory is a file, which `unlink` removes.
    · have hunlinked : ∃ u, t.unlink (dir ++ [k]) = some u := by
        unfold Tree.unlink
        refine ⟨_, dif_pos ?_⟩
        unfold Tree.isDir at hdir
        unfold Tree.data
        have hsome := Tree.mem_iff_kind.mp hlisted
        dsimp only at hsome
        split at hdir
        · exact absurd rfl hdir
        · rcases hkind : t.kind (dir ++ [k]) with _ | _ | d
          · exact absurd hkind hsome
          · rename_i hno
            exact absurd hkind hno
          · rfl
      obtain ⟨u, hu⟩ := hunlinked
      rw [hu] at hstep
      cases hstep
      have hdata : (t.data (dir ++ [k])).isSome = true := by
        unfold Tree.unlink at hu
        split_ifs at hu with hd
        exact hd
      refine h.next (fun q hq => by rw [Tree.kind_unlink hu, if_neg hq]) ?_
      intro p hp hprefix
      rw [Tree.mem_iff_kind, Tree.kind_unlink hu] at hp
      split_ifs at hp with heq
      · exact hp rfl
      · -- A file has nothing below it.
        have hdir' := Tree.isDir_of_isPrefix (Tree.mem_iff_kind.mpr hp) hprefix (Ne.symm heq)
        exact hdir hdir'

end Removal

end TreeRemoval
