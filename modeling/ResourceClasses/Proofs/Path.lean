import Mathlib.Data.List.Basic
import Mathlib.Data.List.TakeWhile
import ResourceClasses.Name.Class

/-!
Laws of paths: the steps of a path that is continued are those of both parts, one after the other.
So the steps to the directory of a package depend only on those of its root.
-/

set_option autoImplicit false

namespace ResourceClasses

namespace Text

variable {separator : Char}

private theorem stretches_separator (rest : List Char) :
    stretches separator (separator :: rest) = [] :: stretches separator rest :=
  if_pos rfl

/-- Any other character goes to the stretch behind it, of which there is always one. -/
private theorem stretches_cons {c : Char} (other : c ≠ separator) (rest : List Char) :
    ∃ part more, stretches separator rest = part :: more ∧
      stretches separator (c :: rest) = (c :: part) :: more := by
  have some_part : stretches separator rest ≠ [] := by
    cases rest with
    | nil => exact List.cons_ne_nil _ _
    | cons next later =>
      rw [stretches, List.foldr_cons]
      split
      · exact List.cons_ne_nil _ _
      · split <;> exact List.cons_ne_nil _ _
  obtain ⟨part, more, parts⟩ := List.exists_cons_of_ne_nil some_part
  refine ⟨part, more, parts, ?_⟩
  unfold stretches at parts ⊢
  rw [List.foldr_cons, if_neg other, parts]

/-- A separator ends the stretches before it and starts those after it. -/
theorem stretches_append_cons (first second : List Char) :
    stretches separator (first ++ separator :: second) =
      stretches separator first ++ stretches separator second := by
  induction first with
  | nil => exact stretches_separator second
  | cons c rest ih =>
    rw [List.cons_append]
    by_cases same : c = separator
    · rw [same, stretches_separator, stretches_separator, ih, List.cons_append]
    · obtain ⟨part, more, parts, longer⟩ := stretches_cons same rest
      obtain ⟨part', more', parts', longer'⟩ := stretches_cons same (rest ++ separator :: second)
      rw [ih, parts, List.cons_append, List.cons.injEq] at parts'
      rw [longer, longer', List.cons_append, ← parts'.1, ← parts'.2]

/-- The segments of texts with a separator in between are those of both. -/
theorem segments_append (first second : String) :
    segments separator (first ++ String.singleton separator ++ second) =
      segments separator first ++ segments separator second := by
  rw [segments, String.append_assoc, String.toList_append, String.toList_append,
    String.toList_singleton, List.singleton_append, stretches_append_cons, List.filter_append,
    List.map_append]
  rfl

/-- Each stretch of a text with another character behind it: that character stands for each
separator, and at the end. -/
theorem flatMap_stretches (other : Char) (cs : List Char) :
    ((stretches separator cs).flatMap fun part => part ++ [other]) =
      (cs.map fun c => if c = separator then other else c) ++ [other] := by
  induction cs with
  | nil => rfl
  | cons c rest ih =>
    by_cases same : c = separator
    · rw [same, stretches_separator, List.flatMap_cons, ih, List.map_cons, if_pos rfl]
      rfl
    · obtain ⟨part, more, parts, longer⟩ := stretches_cons same rest
      rw [parts, List.flatMap_cons] at ih
      rw [longer, List.flatMap_cons, List.map_cons, if_neg same, List.cons_append, List.cons_append,
        ih, List.cons_append]

/-- A text is told by its stretches. -/
theorem stretches_injective : Function.Injective (stretches separator) := by
  intro first second same
  have whole : ∀ cs : List Char,
      ((stretches separator cs).flatMap fun part => part ++ [separator]) = cs ++ [separator] := by
    intro cs
    have kept : (fun c => if c = separator then separator else c) = id := by
      funext c
      split
      · rename_i here
        exact here.symm
      · rfl
    rw [flatMap_stretches, kept, List.map_id]
  have both := whole first
  rw [same, whole] at both
  exact (List.append_cancel_right both).symm

private theorem stretches_of_not_mem {cs : List Char} (none_there : separator ∉ cs) :
    stretches separator cs = [cs] := by
  induction cs with
  | nil => rfl
  | cons c rest ih =>
    rw [List.mem_cons, not_or] at none_there
    obtain ⟨other, later⟩ := none_there
    obtain ⟨part, more, parts, longer⟩ := stretches_cons (Ne.symm other) rest
    rw [ih later, List.cons.injEq] at parts
    rw [longer, ← parts.1, ← parts.2]

/-- A text without the separator is its only segment. -/
theorem segments_of_not_mem {s : String} (some_char : s.toList ≠ [])
    (none_there : separator ∉ s.toList) : segments separator s = [s] := by
  rw [segments, stretches_of_not_mem none_there, List.filter_cons_of_pos (by simpa using some_char)]
  exact congrArg (fun text => [text]) String.ofList_toList

private theorem flatten_stretches (cs : List Char) :
    (stretches separator cs).flatten = cs.filter (· ≠ separator) := by
  induction cs with
  | nil => rfl
  | cons c rest ih =>
    by_cases same : c = separator
    · rw [same, stretches_separator, List.flatten_cons, ih]
      simp
    · obtain ⟨part, more, parts, longer⟩ := stretches_cons same rest
      rw [parts] at ih
      rw [longer, List.flatten_cons, List.cons_append, ← List.flatten_cons, ih]
      simp [same]

/-- The characters of segments are those of the text, without the separator. -/
theorem mem_of_mem_segments {s segment : String} (member : segment ∈ segments separator s) :
    segment.toList ≠ [] ∧ ∀ c ∈ segment.toList, c ∈ s.toList ∧ c ≠ separator := by
  obtain ⟨part, inside, rfl⟩ := List.mem_map.mp member
  obtain ⟨part_of, some_char⟩ := List.mem_filter.mp inside
  rw [String.toList_ofList]
  refine ⟨by simpa using some_char, fun c here => ?_⟩
  have kept : c ∈ s.toList.filter (· ≠ separator) := by
    rw [← flatten_stretches]
    exact List.mem_flatten_of_mem part_of here
  simpa using kept

theorem sublist_of_mem_segments {s segment : String} (member : segment ∈ segments separator s) :
    segment.toList.Sublist s.toList := by
  obtain ⟨part, inside, rfl⟩ := List.mem_map.mp member
  have whole := List.sublist_flatten_of_mem (List.mem_filter.mp inside).1
  rw [flatten_stretches] at whole
  rw [String.toList_ofList]
  exact whole.trans List.filter_sublist

/-- Only separators give no segment. -/
theorem eq_separator_of_segments_eq_nil {s : String} (no_segment : segments separator s = []) :
    ∀ c ∈ s.toList, c = separator := by
  rw [segments, List.map_eq_nil_iff, List.filter_eq_nil_iff] at no_segment
  have nothing : s.toList.filter (· ≠ separator) = [] := by
    rw [← flatten_stretches, List.flatten_eq_nil_iff]
    intro part member
    simpa using no_segment part member
  intro c member
  simpa using List.filter_eq_nil_iff.mp nothing c member

end Text

namespace Path

private theorem exists_of_endsWith {base : String} (ends : base.endsWith '/' = true) :
    ∃ front, base = front ++ "/" := by
  rw [String.endsWith_char_eq_getLast?, beq_iff_eq] at ends
  refine ⟨String.ofList base.toList.dropLast, String.toList_injective ?_⟩
  rw [String.toList_append, String.toList_ofList]
  exact (List.dropLast_append_getLast? _ ends).symm

theorem steps_append_slash (front : String) : steps (front ++ "/") = steps front := by
  have split : steps (front ++ "/" ++ "") = steps front ++ steps "" :=
    Text.segments_append front ""
  rw [String.append_empty] at split
  rw [split]
  exact List.append_nil _

theorem join_of_below {base next : String} (below : next.startsWith '/' = false) :
    join base next =
      if base.isEmpty || base.endsWith '/' then base ++ next else base ++ "/" ++ next := by
  rw [join, below, if_neg Bool.false_ne_true]

/-- Continuing a path by one that does not start at the root adds the steps of that one. -/
theorem steps_join {base next : String} (below : next.startsWith '/' = false) :
    steps (join base next) = steps base ++ steps next := by
  rw [join_of_below below]
  by_cases closed : (base.isEmpty || base.endsWith '/') = true
  · rw [if_pos closed]
    rcases Bool.or_eq_true_iff.mp closed with nothing | ends
    · rw [String.isEmpty_iff.mp nothing, String.empty_append]
      rfl
    · obtain ⟨front, rfl⟩ := exists_of_endsWith ends
      rw [steps_append_slash]
      exact Text.segments_append front next
  · rw [if_neg closed]
    exact Text.segments_append base next

/-- What starts with a name without slashes does not start at the root. -/
private theorem startsWith_append {step : String} (some_step : step ≠ "")
    (no_slash : '/' ∉ step.toList) (behind : String) : (step ++ behind).startsWith '/' = false := by
  have some_char : step.toList ≠ [] := by rwa [Ne, String.toList_eq_nil_iff]
  obtain ⟨c, more, chars⟩ := List.exists_cons_of_ne_nil some_char
  rw [chars, List.mem_cons, not_or] at no_slash
  rw [String.startsWith_char_eq_head?, String.toList_append, chars]
  simpa using Ne.symm no_slash.1

private theorem startsWith_step {step : String} (some_step : step ≠ "")
    (no_slash : '/' ∉ step.toList) : step.startsWith '/' = false := by
  have below := startsWith_append some_step no_slash ""
  rwa [String.append_empty] at below

/-- A path that is continued by one step and then further is continued by both in one. -/
private theorem join_join {base step next : String} (some_step : step ≠ "")
    (no_slash : '/' ∉ step.toList) (below : next.startsWith '/' = false) :
    join (join base step) next = join base (step ++ "/" ++ next) := by
  have some_char : step.toList ≠ [] := by rwa [Ne, String.toList_eq_nil_iff]
  have both_below : (step ++ "/" ++ next).startsWith '/' = false := by
    rw [String.append_assoc]
    exact startsWith_append some_step no_slash _
  have open_end : ∀ front : String, (front ++ step).endsWith '/' = false := by
    intro front
    rw [String.endsWith_char_eq_getLast?, String.toList_append,
      List.getLast?_append_of_ne_nil _ some_char, List.getLast?_eq_some_getLast some_char]
    have last := List.getLast_mem some_char
    simpa using fun same : step.toList.getLast some_char = '/' => no_slash (same ▸ last)
  have closed : ∀ front : String,
      join (front ++ step) next = front ++ step ++ "/" ++ next := by
    intro front
    have some_front : (front ++ step).isEmpty = false := by
      rw [← Bool.not_eq_true, String.isEmpty_iff, String.append_eq_empty_iff]
      exact fun nothing => some_step nothing.2
    rw [join_of_below below, some_front, open_end, Bool.or_false, if_neg Bool.false_ne_true]
  rw [join_of_below (startsWith_step some_step no_slash),
    join_of_below both_below]
  split
  · rw [closed]
    simp only [String.append_assoc]
  · rw [closed]
    simp only [String.append_assoc]

private theorem foldr_below {parts : List String} {next : String}
    (plain : ∀ part ∈ parts, part ≠ "" ∧ '/' ∉ part.toList) (below : next.startsWith '/' = false) :
    (parts.foldr (fun part later => part ++ "/" ++ later) next).startsWith '/' = false := by
  cases parts with
  | nil => exact below
  | cons part rest =>
    obtain ⟨some_part, no_slash⟩ := plain part List.mem_cons_self
    rw [List.foldr_cons, String.append_assoc]
    exact startsWith_append some_part no_slash _

/-- A path that is continued step by step is continued by all steps at once. -/
theorem join_foldl {parts : List String} {next : String}
    (plain : ∀ part ∈ parts, part ≠ "" ∧ '/' ∉ part.toList) (below : next.startsWith '/' = false)
    (base : String) :
    join (parts.foldl join base) next =
      join base (parts.foldr (fun part later => part ++ "/" ++ later) next) := by
  induction parts generalizing base with
  | nil => rfl
  | cons part rest ih =>
    rw [List.forall_mem_cons] at plain
    rw [List.foldl_cons, ih plain.2, List.foldr_cons,
      join_join plain.1.1 plain.1.2 (foldr_below plain.2 below)]

/-- Continuing a path step by step adds the steps. -/
theorem steps_foldl_join {parts : List String}
    (plain : ∀ part ∈ parts, part ≠ "" ∧ '/' ∉ part.toList) (base : String) :
    steps (parts.foldl join base) = steps base ++ parts := by
  induction parts generalizing base with
  | nil => exact (List.append_nil _).symm
  | cons part rest ih =>
    rw [List.forall_mem_cons] at plain
    obtain ⟨⟨some_part, no_slash⟩, later⟩ := plain
    have one : steps part = [part] :=
      Text.segments_of_not_mem (by rwa [Ne, String.toList_eq_nil_iff]) no_slash
    rw [List.foldl_cons, ih later, steps_join (startsWith_step some_part no_slash), one,
      List.append_assoc]
    rfl

theorem join_ne_empty {base next : String} (some_next : next ≠ "") : join base next ≠ "" := by
  unfold join
  split
  · exact some_next
  · split <;> simp [String.append_eq_empty_iff, some_next]

/-- The steps of a continued path do not depend on how the path before is written. -/
theorem steps_join_congr {base other : String} (same : steps base = steps other) (next : String) :
    steps (join base next) = steps (join other next) := by
  cases root : next.startsWith '/' with
  | true => rw [join, join, if_pos root, if_pos root]
  | false => rw [steps_join root, steps_join root, same]

/-- Dropping steps that stay in place from the end of a path drops no other step. -/
private theorem steps_dropStays (above : List Char) :
    ∃ count, steps (String.ofList above.reverse) =
      steps (String.ofList (dropStays above).reverse) ++ List.replicate count stay := by
  fun_induction dropStays above with
  | case1 above ih =>
    have split : String.ofList ('/' :: above).reverse = String.ofList above.reverse ++ "/" := by
      rw [List.reverse_cons, String.ofList_append]
    rw [split, steps_append_slash]
    exact ih
  | case2 above ih =>
    obtain ⟨count, same⟩ := ih
    have split : String.ofList ('.' :: '/' :: above).reverse =
        String.ofList above.reverse ++ String.singleton '/' ++ stay := by
      rw [List.reverse_cons, List.reverse_cons, String.ofList_append, String.ofList_append]
      rfl
    refine ⟨count + 1, ?_⟩
    rw [split, steps, Text.segments_append, ← steps, same, List.append_assoc,
      List.replicate_succ']
    rfl
  | case3 kept =>
    exact ⟨0, (List.append_nil _).symm⟩

private theorem dropStays_ne {above more : List Char} :
    dropStays above ≠ '/' :: more ∧ dropStays above ≠ '.' :: '/' :: more := by
  fun_induction dropStays above with
  | case1 above ih => exact ih
  | case2 above ih => exact ih
  | case3 kept slash stays => exact ⟨slash more, stays more⟩

/-- What stands behind the last slash of a path is its last step; the path is written backwards. -/
private theorem steps_reverse {name above : List Char} (some_char : name ≠ [])
    (no_slash : '/' ∉ name) (closed : above = [] ∨ ∃ more, above = '/' :: more) :
    steps (String.ofList (name ++ above).reverse) =
      steps (String.ofList above.reverse) ++ [String.ofList name.reverse] := by
  have single : steps (String.ofList name.reverse) = [String.ofList name.reverse] := by
    refine Text.segments_of_not_mem ?_ ?_ <;> simpa
  rw [List.reverse_append, String.ofList_append]
  rcases closed with rfl | ⟨more, rfl⟩
  · exact single
  · have slash : String.ofList ('/' :: more).reverse = String.ofList more.reverse ++ "/" := by
      rw [List.reverse_cons, String.ofList_append]
    rw [slash, steps_append_slash]
    exact (Text.segments_append _ _).trans (congrArg _ single)

private theorem closed_dropWhile (cs : List Char) :
    cs.dropWhile (· ≠ '/') = [] ∨ ∃ more, cs.dropWhile (· ≠ '/') = '/' :: more := by
  cases left : cs.dropWhile (· ≠ '/') with
  | nil => exact .inl rfl
  | cons c more =>
    have stopped := List.head_dropWhile_not (· ≠ '/') (left ▸ List.cons_ne_nil c more)
    simp only [left, List.head_cons] at stopped
    exact .inr ⟨more, by simpa using stopped⟩

private theorem steps_directory (path : String) :
    steps (directory path) =
      steps (String.ofList (dropStays (path.toList.reverse.dropWhile (· ≠ '/'))).reverse) := by
  unfold directory
  dsimp only
  split
  · rename_i root
    rw [Bool.and_eq_true, List.isEmpty_iff] at root
    rw [root.1]
    decide
  · rfl

/-- A path that ends in a name goes to its directory, stays there and takes one more step. -/
theorem steps_eq_directory {path : String} (some_path : path ≠ "")
    (named : path.endsWith '/' = false) :
    ∃ count last,
      steps path = steps (directory path) ++ List.replicate count stay ++ [last] := by
  have whole : path = String.ofList (path.toList.reverse.takeWhile (· ≠ '/') ++
      path.toList.reverse.dropWhile (· ≠ '/')).reverse := by
    rw [List.takeWhile_append_dropWhile, List.reverse_reverse, String.ofList_toList]
  have some_char : path.toList.reverse.takeWhile (· ≠ '/') ≠ [] := by
    intro nothing
    rw [nothing, List.nil_append] at whole
    rcases closed_dropWhile path.toList.reverse with left | ⟨more, left⟩
    · rw [left] at whole
      exact some_path whole
    · rw [whole, left, String.endsWith_char_eq_getLast?, String.toList_ofList] at named
      simp at named
  have no_slash : '/' ∉ path.toList.reverse.takeWhile (· ≠ '/') := by
    intro member
    simpa using List.mem_takeWhile_imp member
  obtain ⟨count, same⟩ := steps_dropStays (path.toList.reverse.dropWhile (· ≠ '/'))
  refine ⟨count, String.ofList (path.toList.reverse.takeWhile (· ≠ '/')).reverse, ?_⟩
  rw [steps_directory, ← same, ← steps_reverse some_char no_slash (closed_dropWhile _), ← whole]

/-- The directory of a path stays in place at most where it starts. -/
theorem eq_nil_of_steps_directory {path : String} {front : List String}
    (stays : steps (directory path) = front ++ [stay]) : front = [] := by
  rw [steps_directory] at stays
  cases kept : dropStays (path.toList.reverse.dropWhile (· ≠ '/')) with
  | nil =>
    rw [kept] at stays
    exact (List.append_eq_nil_iff.mp stays.symm).1
  | cons c more =>
    have whole : c :: more =
        (c :: more).takeWhile (· ≠ '/') ++ (c :: more).dropWhile (· ≠ '/') :=
      List.takeWhile_append_dropWhile.symm
    have some_char : (c :: more).takeWhile (· ≠ '/') ≠ [] := by
      have other : c ≠ '/' := by
        rintro rfl
        exact dropStays_ne.1 kept
      rw [List.takeWhile_cons_of_pos (by simpa using other)]
      exact List.cons_ne_nil _ _
    have no_slash : '/' ∉ (c :: more).takeWhile (· ≠ '/') := by
      intro member
      simpa using List.mem_takeWhile_imp member
    have closed := closed_dropWhile (c :: more)
    generalize (c :: more).takeWhile (· ≠ '/') = name at whole some_char no_slash
    generalize (c :: more).dropWhile (· ≠ '/') = above at whole closed
    rw [kept, whole, steps_reverse some_char no_slash closed] at stays
    obtain ⟨same, last⟩ := List.append_inj' stays rfl
    rcases closed with rfl | ⟨later, rfl⟩
    · exact same.symm
    · have one : name = ['.'] := by
        have text : (String.ofList name.reverse).toList = stay.toList :=
          congrArg String.toList (List.cons.inj last).1
        rw [String.toList_ofList] at text
        exact List.reverse_eq_iff.mp text
      rw [whole, one] at kept
      exact absurd kept dropStays_ne.2

end Path

namespace Name

/-- The directory of a package with components does not stay in place at its end, however the root
is written. -/
theorem steps_packageDir_ne {package : String} (some_component : Text.segments '.' package ≠ [])
    (root : String) (front : List String) :
    Path.steps (packageDir root package) ≠ front ++ [Path.stay] := by
  obtain ⟨first, segment, split⟩ : ∃ first segment,
      Text.segments '.' package = first ++ [segment] :=
    ⟨_, _, (List.dropLast_append_getLast some_component).symm⟩
  have member : segment ∈ Text.segments '.' package := by
    rw [split]
    exact List.mem_append_right _ List.mem_cons_self
  obtain ⟨some_char, chars⟩ := Text.mem_of_mem_segments member
  have no_stay : Path.stay ∉ Path.steps segment := by
    intro inside
    have dot := (Text.mem_of_mem_segments inside).2 '.' (by decide)
    exact (chars '.' dot.1).2 rfl
  rw [packageDir, split, List.foldl_append, List.foldl_cons, List.foldl_nil]
  intro stays
  cases absolute : segment.startsWith '/' with
  | true =>
    rw [Path.join, if_pos absolute] at stays
    rw [stays] at no_stay
    exact no_stay (List.mem_append_right _ List.mem_cons_self)
  | false =>
    rw [Path.steps_join absolute] at stays
    rcases List.eq_nil_or_concat' (Path.steps segment) with no_step | ⟨others, last, steps⟩
    · -- A component that is nothing but slashes starts at the root.
      obtain ⟨c, more, text⟩ := List.exists_cons_of_ne_nil some_char
      have slash := Text.eq_separator_of_segments_eq_nil no_step c (text ▸ List.mem_cons_self)
      rw [String.startsWith_char_eq_head?, text, slash] at absolute
      simp at absolute
    · rw [steps, ← List.append_assoc] at stays
      rw [steps, (List.cons.inj (List.append_inj' stays rfl).2).1] at no_stay
      exact no_stay (List.mem_append_right _ List.mem_cons_self)

theorem steps_packageDir {root other : String} (same : Path.steps root = Path.steps other)
    (package : String) :
    Path.steps (packageDir root package) = Path.steps (packageDir other package) := by
  unfold packageDir
  induction Text.segments '.' package generalizing root other with
  | nil => exact same
  | cons segment rest ih => exact ih (Path.steps_join_congr same segment)

end Name

end ResourceClasses
