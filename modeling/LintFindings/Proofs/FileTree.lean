/-
What a program may rely on when it uses files.

`FileOps.Lawful` says it for files of any kind: reading changes nothing, writing that
fails changes nothing either, and writing that does not fail changes what is at one
place only.  Several paths may lead to that place, so the laws are relative to a
relation between paths.

The files of a tree are lawful (`FileTree.lawful_ops`).  A path leads to its place by
way of directories, so a file that is written has directories above it
(`isDirectory_of_walk`); therefore no directory comes or goes, and every other path
leads where it led before.
-/
import LintFindings.FileTree
import Mathlib.Data.List.Basic

namespace LintFindings

/-! ### Laws -/

namespace FileOps

variable {σ : Type}

/-- What reading a path answers. -/
def content (files : FileOps (StateM σ)) (s : σ) (path : Text) :
    Except FileFailure (List UInt8) :=
  ((files.read path).run s).1

/-- Whether files behave as files do, where some paths lead to the same places. -/
structure Lawful (files : FileOps (StateM σ)) (Same : σ → Text → Text → Prop) : Prop where
  read : ∀ path s, ((files.read path).run s).2 = s
  write_error : ∀ path bytes s failure s',
    (files.write path bytes).run s = (.error failure, s') → s' = s
  write_same : ∀ path bytes s s' other,
    (files.write path bytes).run s = (.ok (), s') → Same s path other →
    files.content s' other = .ok bytes
  write_other : ∀ path bytes s s' other,
    (files.write path bytes).run s = (.ok (), s') → ¬ Same s path other →
    (files.content s' other).toOption = (files.content s other).toOption
  same_refl : ∀ s path, Same s path path

theorem Lawful.read_run {files : FileOps (StateM σ)} {Same : σ → Text → Text → Prop}
    (h : files.Lawful Same) (path : Text) (s : σ) :
    (files.read path).run s = (files.content s path, s) :=
  Prod.ext rfl (h.read path s)

end FileOps

namespace FileTree

variable {tree tree' : FileTree} {here p q : List Text} {path : Text} {bytes : List UInt8}

/-! ### Directories -/

theorem isDirectory_iff : tree.isDirectory q = true ↔
    (∀ part ∈ q, part = up) ∨ tree.nodes.lookup q = some .directory ∨
      ∃ node ∈ tree.nodes, q <+: node.1 ∧ node.1 ≠ q := by
  simp [isDirectory, or_assoc]

/-- What is above a directory is one. -/
theorem isDirectory_of_prefix (hq : q <+: p) (hp : tree.isDirectory p = true) :
    tree.isDirectory q = true := by
  by_cases hne : p = q
  · rw [← hne, hp]
  · rw [isDirectory_iff] at hp ⊢
    rcases hp with hup | hlisted | ⟨node, hnode, hprefix, -⟩
    · exact .inl fun part hpart => hup part (hq.subset hpart)
    · obtain ⟨front, rest, hnodes, -⟩ := List.lookup_eq_some_iff.mp hlisted
      exact .inr (.inr ⟨(p, .directory), by simp [hnodes], hq, hne⟩)
    · refine .inr (.inr ⟨node, hnode, hq.trans hprefix, ?_⟩)
      rintro rfl
      exact hne (List.IsPrefix.eq_of_length_le hq hprefix.length_le).symm

theorem isDirectory_nil : tree.isDirectory [] = true := by
  rw [isDirectory_iff]
  simp

/-- A step up from a directory leads to one. -/
theorem isDirectory_up (h : tree.isDirectory here = true) :
    tree.isDirectory (if here.all (· == up) then here ++ [up] else here.dropLast) = true := by
  by_cases hall : here.all (· == up) = true
  · rw [if_pos hall, isDirectory_iff]
    left
    intro part hpart
    rcases List.mem_append.mp hpart with hpart | hpart
    · exact beq_iff_eq.mp (List.all_eq_true.mp hall part hpart)
    · exact List.mem_singleton.mp hpart
  · rw [if_neg hall]
    exact isDirectory_of_prefix (List.dropLast_prefix here) h

/-! ### Places -/

/-- **All that is above a place where a path leads is a directory.** -/
theorem isDirectory_of_walk {rest : List Text} (hhere : tree.isDirectory here = true)
    (h : tree.walk here rest = .ok p) (hq : q <+: p) (hne : q ≠ p) :
    tree.isDirectory q = true := by
  fun_induction walk tree here rest with
  | case1 here =>
      cases h
      exact isDirectory_of_prefix hq hhere
  | case2 here part rest _ ih => exact ih hhere h
  | case3 here rest _ ih => exact ih (isDirectory_up hhere) h
  | case4 here part _ _ next =>
      obtain rfl : here ++ [part] = p := Except.ok.inj h
      rcases List.prefix_concat_iff.mp hq with heq | hprefix
      · exact absurd heq hne
      · exact isDirectory_of_prefix hprefix hhere
  | case5 here part rest _ _ next _ hnext ih => exact ih hnext h
  | case6 => cases h
  | case7 => cases h

/-- Trees with the same directories lead a path to the same place. -/
theorem walk_congr (h : ∀ q, tree'.isDirectory q = tree.isDirectory q) (rest : List Text) :
    tree'.walk here rest = .ok p ↔ tree.walk here rest = .ok p := by
  induction rest generalizing here with
  | nil => simp [walk]
  | cons part rest ih =>
      rw [walk, walk]
      dsimp only
      rw [h]
      split
      · exact ih
      · split
        · exact ih
        · split
          · rfl
          · split
            · exact ih
            · constructor <;>
                · intro hwalk
                  split at hwalk <;> cases hwalk

/-- Paths that lead to one place. -/
def Same (tree : FileTree) (path other : Text) : Prop := tree.locate path = tree.locate other

theorem locate_congr (h : ∀ q, tree'.isDirectory q = tree.isDirectory q) (path : Text) :
    tree'.locate path = .ok p ↔ tree.locate path = .ok p := by
  unfold locate
  split
  · rfl
  · rfl
  · exact walk_congr h _

theorem isDirectory_of_locate (h : tree.locate path = .ok p) (hq : q <+: p) (hne : q ≠ p) :
    tree.isDirectory q = true := by
  unfold locate at h
  split at h
  · cases h
  · cases h
  · exact isDirectory_of_walk isDirectory_nil h hq hne

/-! ### Writing -/

/-- The tree in which a place holds a file. -/
def putFile (tree : FileTree) (p : List Text) (bytes : List UInt8) : FileTree :=
  ⟨(p, .file bytes) :: tree.nodes.filter fun (q, _) => q ≠ p⟩

/-- What writing to a path does, if it does anything. -/
theorem write_eq_ok (h : tree.write path bytes = .ok tree') :
    ∃ p, tree.locate path = .ok p ∧ tree.isDirectory p = false ∧ tree' = tree.putFile p bytes := by
  unfold write at h
  cases hp : tree.locate (path.reverse.dropWhile (· == '/')).reverse with
  | error e =>
      rw [hp] at h
      cases h
  | ok p =>
      rw [hp] at h
      simp only [bind, Except.bind] at h
      split at h
      · cases h
      · rename_i hgood
        rw [not_or, Bool.not_eq_true] at hgood
        cases h
        -- without a slash at its end, nothing is cut off the path
        have hpath : (path.reverse.dropWhile (· == '/')).reverse = path := by
          cases hback : path.reverse with
          | nil => simpa using hback
          | cons c back =>
              have hc : c ≠ '/' := by
                rintro rfl
                apply hgood.1
                rw [← List.head?_reverse, hback]
                rfl
              rw [List.dropWhile_cons_of_neg (by simpa using hc), ← hback, List.reverse_reverse]
        rw [hpath] at hp
        exact ⟨p, hp, hgood.2, rfl⟩

theorem lookup_putFile_self : (tree.putFile p bytes).nodes.lookup p = some (.file bytes) := by
  simp [putFile]

theorem lookup_putFile_of_ne (hne : q ≠ p) :
    (tree.putFile p bytes).nodes.lookup q = tree.nodes.lookup q := by
  rw [putFile, List.lookup_cons, beq_false_of_ne hne]
  dsimp only
  induction tree.nodes with
  | nil => rfl
  | cons node nodes ih =>
      by_cases hnode : node.1 = p
      · rw [List.filter_cons_of_neg (by simp [hnode]), ih, List.lookup_cons, hnode,
          beq_false_of_ne hne]
      · rw [List.filter_cons_of_pos (by simp [hnode]), List.lookup_cons, List.lookup_cons, ih]

theorem mem_putFile {node : List Text × Node} :
    node ∈ (tree.putFile p bytes).nodes ↔
      node = (p, .file bytes) ∨ node ∈ tree.nodes ∧ node.1 ≠ p := by
  simp [putFile]

/-- **Writing makes no directory and removes none.** -/
theorem isDirectory_putFile (bytes : List UInt8) (hp : tree.isDirectory p = false)
    (habove : ∀ q, q <+: p → q ≠ p → tree.isDirectory q = true) (q : List Text) :
    (tree.putFile p bytes).isDirectory q = tree.isDirectory q := by
  rw [Bool.eq_iff_iff]
  constructor
  · intro h
    rcases isDirectory_iff.mp h with hup | hlisted | ⟨node, hnode, hprefix, hne⟩
    · exact isDirectory_iff.mpr (.inl hup)
    · by_cases hqp : q = p
      · rw [hqp, lookup_putFile_self] at hlisted
        cases hlisted
      · rw [lookup_putFile_of_ne hqp] at hlisted
        exact isDirectory_iff.mpr (.inr (.inl hlisted))
    · rcases mem_putFile.mp hnode with rfl | ⟨hmem, -⟩
      · exact habove q hprefix (Ne.symm hne)
      · exact isDirectory_iff.mpr (.inr (.inr ⟨node, hmem, hprefix, hne⟩))
  · intro h
    have hqp : q ≠ p := by
      rintro rfl
      rw [hp] at h
      exact Bool.noConfusion h
    rcases isDirectory_iff.mp h with hup | hlisted | ⟨node, hmem, hprefix, hne⟩
    · exact isDirectory_iff.mpr (.inl hup)
    · rw [← lookup_putFile_of_ne hqp] at hlisted
      exact isDirectory_iff.mpr (.inr (.inl hlisted))
    · by_cases hnode : node.1 = p
      · rw [hnode] at hprefix
        exact isDirectory_iff.mpr
          (.inr (.inr ⟨(p, .file bytes), mem_putFile.mpr (.inl rfl), hprefix, Ne.symm hqp⟩))
      · exact isDirectory_iff.mpr
          (.inr (.inr ⟨node, mem_putFile.mpr (.inr ⟨hmem, hnode⟩), hprefix, hne⟩))

/-! ### The files of a tree -/

theorem read_of_locate (h : tree.locate path = .ok p) :
    tree.read path = match tree.nodes.lookup p with
      | some (.file bytes) => .ok bytes
      | some .directory => .error .isDirectory
      | none => .error (if tree.isDirectory p then .isDirectory else .notFound) := by
  rw [read, h]
  rfl

theorem toOption_read_of_error {failure : FileFailure} (h : tree.locate path = .error failure) :
    (tree.read path).toOption = none := by
  rw [read, h]
  rfl

/-- **What is written is read back, and nothing else has changed.** -/
theorem read_of_write {other : Text} (h : tree.write path bytes = .ok tree') :
    (tree.Same path other → tree'.read other = .ok bytes) ∧
    (¬ tree.Same path other → (tree'.read other).toOption = (tree.read other).toOption) := by
  obtain ⟨p, hp, hfile, rfl⟩ := write_eq_ok h
  have hdirectories := isDirectory_putFile bytes hfile fun q => isDirectory_of_locate hp
  constructor
  · intro hsame
    have hother : (tree.putFile p bytes).locate other = .ok p := by
      rw [locate_congr hdirectories, ← hsame, hp]
    rw [read_of_locate hother, lookup_putFile_self]
  · intro hdiffer
    cases hother : tree.locate other with
    | ok q =>
        have hne : q ≠ p := by
          rintro rfl
          exact hdiffer (hp.trans hother.symm)
        rw [read_of_locate hother, read_of_locate ((locate_congr hdirectories other).mpr hother),
          lookup_putFile_of_ne hne, hdirectories]
    | error failure =>
        rw [toOption_read_of_error hother]
        cases hother' : (tree.putFile p bytes).locate other with
        | error failure' => exact toOption_read_of_error hother'
        | ok q =>
            rw [locate_congr hdirectories, hother] at hother'
            cases hother'

theorem run_write (tree : FileTree) (path : Text) (bytes : List UInt8) :
    (ops.write path bytes).run tree =
      match tree.write path bytes with
      | .ok tree' => (.ok (), tree')
      | .error failure => (.error failure, tree) := rfl

/-- **The files of a tree are lawful.** -/
theorem lawful_ops : ops.Lawful Same where
  read _ _ := rfl
  write_error path bytes tree failure tree' h := by
    rw [run_write] at h
    split at h <;> cases h
    rfl
  write_same path bytes tree tree' other h hsame := by
    rw [run_write] at h
    split at h
    · rename_i hwrite
      cases h
      exact (read_of_write hwrite).1 hsame
    · cases h
  write_other path bytes tree tree' other h hdiffer := by
    rw [run_write] at h
    split at h
    · rename_i hwrite
      cases h
      exact (read_of_write hwrite).2 hdiffer
    · cases h
  same_refl _ _ := rfl

end FileTree

end LintFindings
