import Mathlib.Data.List.Flatten
import Mathlib.Data.List.Pairwise
import Mathlib.Data.List.Perm.Basic
import SemanticHighlight.Pool.Basic

/-!
# The generations of a pool

In every pool that comes up, a later generation has a larger number, and the next one will have
one that is larger still (`Pool.Ordered`). So a number stands for one generation at most, and
changing the generation of a number changes the list of the generations at one place
(`Pool.exists_place`).

`Pool.held` lists the jobs of a pool with the number of the generation that holds them, and
`Pool.inHand` those of them that a worker has begun. `Pool.held_of_ask`,
`Pool.held_of_start?` and `Pool.held_of_finish` say what an admission, a beginning and an
ending do to the two lists: each is first proved of one generation, and then taken to the
pool, which gains and loses what the generation does.
-/

namespace SemanticHighlight

namespace Generation

variable {ι : Type} {g g' : Generation ι} {job : ι}

/-- The jobs that a generation holds, with its number. -/
def held (g : Generation ι) : List (Nat × ι) := g.jobs.map fun job => (g.number, job)

/-- The jobs that the workers of a generation have begun, with its number. -/
def inHand (g : Generation ι) : List (Nat × ι) := g.running.map fun job => (g.number, job)

/-- Being retired is the one thing that makes a generation send a job away to look for another. -/
theorem ask_eq_retired_iff {policy : Backpressure} :
    g.ask policy job = .retired ↔ g.retired = true := by
  unfold ask
  by_cases hretired : g.retired = true
  · simp [hretired]
  · rw [if_neg hretired]
    split
    · simp [hretired]
    · cases policy <;> simp [hretired]

/-- A job that is admitted is held from then on. -/
theorem held_of_ask {policy : Backpressure} (h : g.ask policy job = .admitted g') :
    g'.held.Perm (g.held ++ [(g.number, job)]) ∧ g'.inHand = g.inHand := by
  obtain ⟨-, rfl⟩ := ask_eq_admitted_iff.1 h
  refine ⟨?_, rfl⟩
  unfold held jobs
  rw [← List.map_singleton, ← List.map_append]
  refine List.Perm.map _ ?_
  simp only [List.append_assoc]
  exact List.perm_append_comm.append_left g.waiting

/-- A job that a worker begins was held, and is held still, wherever it stood among those that
waited. -/
theorem held_of_start? [DecidableEq ι] (h : g.start? job = some g') :
    g'.held.Perm g.held ∧ g'.inHand = g.inHand ++ [(g.number, job)] := by
  obtain ⟨hwaiting, -, rfl⟩ := start?_eq_some_iff.1 h
  constructor
  · unfold held jobs
    refine List.Perm.map _ ?_
    show (g.waiting.erase job ++ (g.running ++ [job])).Perm (g.waiting ++ g.running)
    rw [← List.append_assoc]
    -- the job comes back to the front of those that waited
    refine (List.perm_append_singleton job _).trans ?_
    exact (List.perm_cons_erase hwaiting).symm.append_right g.running
  · show (g.running ++ [job]).map _ = _
    rw [List.map_append]
    rfl

/-- A job that a worker ends is held no more. -/
theorem held_of_finish [DecidableEq ι] (h : job ∈ g.running) :
    g.held.Perm ((g.finish job).held ++ [(g.number, job)]) ∧
      g.inHand.Perm ((g.finish job).inHand ++ [(g.number, job)]) := by
  have hrunning : g.running.Perm (g.running.erase job ++ [job]) :=
    (List.perm_cons_erase h).trans (List.perm_append_singleton job _).symm
  unfold finish
  rw [if_pos h]
  unfold held inHand jobs
  dsimp only
  rw [← List.map_singleton, ← List.map_append, ← List.map_append, List.append_assoc]
  exact ⟨(hrunning.append_left g.waiting).map _, hrunning.map _⟩

end Generation

namespace Pool

variable {ι : Type} {p : Pool ι} {g g' : Generation ι} {n : Nat}

/-- The jobs that a pool holds, with the numbers of their generations. -/
def held (p : Pool ι) : List (Nat × ι) := p.generations.flatMap Generation.held

/-- The jobs that a worker has begun and not ended, with the numbers of their generations. -/
def inHand (p : Pool ι) : List (Nat × ι) := p.generations.flatMap Generation.inHand

/-- What holds of the numbers of generations. -/
structure Ordered (p : Pool ι) : Prop where
  /-- Each generation has a larger number than those before it. -/
  numbers : p.generations.Pairwise fun later g => g.number < later.number
  next : p.active.number < p.next

/-- What is found under a number is a generation of the pool. -/
theorem mem_of_generation? (hg : p.generation? n = some g) : g ∈ p.generations :=
  List.mem_of_find?_eq_some hg

theorem number_of_generation? (hg : p.generation? n = some g) : g.number = n := by
  simpa using List.find?_some hg

theorem generation?_active (p : Pool ι) : p.generation? p.active.number = some p.active := by
  simp [generation?, generations]

/-- Each generation is found under its number. -/
theorem generation?_of_mem (ho : p.Ordered) (hg : g ∈ p.generations) :
    p.generation? g.number = some g := by
  obtain ⟨later, before, hplace⟩ := List.append_of_mem hg
  have hnumbers := ho.numbers
  rw [hplace, List.pairwise_append] at hnumbers
  obtain ⟨-, -, hlater⟩ := hnumbers
  refine List.find?_eq_some_iff_append.2 ⟨by simp, later, before, hplace, fun g' hg' => ?_⟩
  have hlt := hlater g' hg' g List.mem_cons_self
  simp only [Bool.not_eq_true', decide_eq_false_iff_not]
  omega

theorem former_lt_active (ho : p.Ordered) (hg : g ∈ p.former) : g.number < p.active.number :=
  (List.pairwise_cons.1 ho.numbers).1 g hg

/-- The active generation has the greatest number. -/
theorem le_active (ho : p.Ordered) (hg : g ∈ p.generations) : g.number ≤ p.active.number := by
  rcases List.mem_cons.1 hg with rfl | hformer
  · exact Nat.le_refl _
  · exact Nat.le_of_lt (former_lt_active ho hformer)

theorem generations_modify (p : Pool ι) (n : Nat) (f : Generation ι → Generation ι) :
    (p.modify n f).generations = p.generations.map fun g => if g.number = n then f g else g :=
  rfl

/-- A change of the generation of a number leaves those of other numbers. -/
theorem map_other {gs : List (Generation ι)} {f : Generation ι → Generation ι}
    (h : ∀ g ∈ gs, g.number ≠ n) : (gs.map fun g => if g.number = n then f g else g) = gs :=
  (List.map_congr_left fun g hg => if_neg (h g hg)).trans (List.map_id gs)

/-- The generation of a number has one place in the list, and changing it changes the list
there alone. -/
theorem exists_place (ho : p.Ordered) (hg : p.generation? n = some g) :
    ∃ later before, p.generations = later ++ g :: before ∧
      ∀ f, (p.modify n f).generations = later ++ f g :: before := by
  have hn := number_of_generation? hg
  obtain ⟨later, before, hplace⟩ := List.append_of_mem (mem_of_generation? hg)
  refine ⟨later, before, hplace, fun f => ?_⟩
  have hnumbers := ho.numbers
  rw [hplace, List.pairwise_append, List.pairwise_cons] at hnumbers
  obtain ⟨-, ⟨hbefore, -⟩, hlater⟩ := hnumbers
  -- the numbers before and after the place are other ones
  rw [generations_modify, hplace, List.map_append, List.map_cons, if_pos hn]
  rw [map_other fun x hx => ?_, map_other fun x hx => ?_]
  · have hlt := hbefore x hx
    omega
  · have hlt := hlater x hx g List.mem_cons_self
    omega

/-- What a change keeps of the generation, it keeps of all of them. -/
theorem map_modify {β : Type} (key : Generation ι → β) {f : Generation ι → Generation ι}
    (ho : p.Ordered) (hg : p.generation? n = some g) (hkey : key (f g) = key g) :
    (p.modify n f).generations.map key = p.generations.map key := by
  obtain ⟨later, before, hplace, hmodify⟩ := exists_place ho hg
  rw [hmodify, hplace, List.map_append, List.map_cons, hkey, List.map_append, List.map_cons]

/-- The order is one of numbers alone. -/
theorem Ordered.of_numbers {p' : Pool ι} (ho : p.Ordered)
    (h : p'.generations.map Generation.number = p.generations.map Generation.number)
    (hnext : p.next ≤ p'.next) : p'.Ordered where
  numbers := by
    have hpairwise : (p.generations.map Generation.number).Pairwise fun later n => n < later :=
      List.pairwise_map.2 ho.numbers
    rw [← h] at hpairwise
    exact List.pairwise_map.1 hpairwise
  next := by
    have hactive : p'.active.number = p.active.number := (List.cons.inj h).1
    rw [hactive]
    exact Nat.lt_of_lt_of_le ho.next hnext

/-- A generation that is built has a number that none before it has. -/
theorem Ordered.install (ho : p.Ordered) (hn : g.number = p.next) : (p.install g).Ordered where
  numbers := by
    refine List.pairwise_cons.2 ⟨fun g' hg' => ?_, ho.numbers⟩
    show g'.number < g.number
    rw [hn]
    exact Nat.lt_of_le_of_lt (le_active ho hg') ho.next
  next := by
    show g.number < p.next + 1
    omega

/-- No generation but the active one has its number. -/
theorem map_former (ho : p.Ordered) (f : Generation ι → Generation ι) :
    (p.former.map fun g => if g.number = p.active.number then f g else g) = p.former := by
  refine map_other fun g hg => ?_
  have hlt := former_lt_active ho hg
  omega

/-- Changing the generation that is active is changing it in its field. -/
theorem modify_active (ho : p.Ordered) (f : Generation ι → Generation ι) :
    p.modify p.active.number f = { p with active := f p.active } := by
  unfold modify
  dsimp only
  rw [if_pos rfl, map_former ho]

/-- Changing a generation that is not active leaves the active one. -/
theorem modify_former (hn : p.active.number ≠ n) (f : Generation ι → Generation ι) :
    p.modify n f =
      { p with former := p.former.map fun g => if g.number = n then f g else g } := by
  unfold modify
  dsimp only
  rw [if_neg hn]

/-- What one generation has more than another, a pool has more that has the one in the
other's place. -/
theorem flatMap_place {β : Type} {key : Generation ι → List β} {extra : List β}
    (h : (key g').Perm (key g ++ extra)) (later before : List (Generation ι)) :
    ((later ++ g' :: before).flatMap key).Perm
      ((later ++ g :: before).flatMap key ++ extra) := by
  simp only [List.flatMap_append, List.flatMap_cons, List.append_assoc]
  refine List.Perm.append_left _ ?_
  refine (h.append_right _).trans ?_
  rw [List.append_assoc]
  exact List.perm_append_comm.append_left _

/-- What a generation gains by a change, the pool gains. -/
theorem flatMap_gain {β : Type} {key : Generation ι → List β} {extra : List β}
    {f : Generation ι → Generation ι} (ho : p.Ordered) (hg : p.generation? n = some g)
    (h : (key (f g)).Perm (key g ++ extra)) :
    ((p.modify n f).generations.flatMap key).Perm (p.generations.flatMap key ++ extra) := by
  obtain ⟨later, before, hplace, hmodify⟩ := exists_place ho hg
  rw [hmodify, hplace]
  exact flatMap_place h later before

/-- What a generation loses by a change, the pool loses. -/
theorem flatMap_lose {β : Type} {key : Generation ι → List β} {extra : List β}
    {f : Generation ι → Generation ι} (ho : p.Ordered) (hg : p.generation? n = some g)
    (h : (key g).Perm (key (f g) ++ extra)) :
    (p.generations.flatMap key).Perm ((p.modify n f).generations.flatMap key ++ extra) := by
  obtain ⟨later, before, hplace, hmodify⟩ := exists_place ho hg
  rw [hmodify, hplace]
  exact flatMap_place h later before

/-- What a change of a generation leaves alone, it leaves alone in the pool. -/
theorem flatMap_same {β : Type} {key : Generation ι → List β} {f : Generation ι → Generation ι}
    (ho : p.Ordered) (hg : p.generation? n = some g) (h : (key (f g)).Perm (key g)) :
    ((p.modify n f).generations.flatMap key).Perm (p.generations.flatMap key) := by
  have hgain := flatMap_gain ho hg (h.trans (.of_eq (List.append_nil (key g)).symm))
  rwa [List.append_nil] at hgain

variable {job : ι}

/-- A job that is admitted is held, and not yet in hand. -/
theorem held_of_ask {policy : Backpressure} (ho : p.Ordered) (hg : p.generation? n = some g)
    (h : g.ask policy job = .admitted g') :
    (p.modify n fun _ => g').held.Perm (p.held ++ [(n, job)]) ∧
      (p.modify n fun _ => g').inHand.Perm p.inHand := by
  obtain ⟨hheld, hinHand⟩ := Generation.held_of_ask h
  rw [number_of_generation? hg] at hheld
  exact ⟨flatMap_gain (f := fun _ => g') ho hg hheld,
    flatMap_same (f := fun _ => g') ho hg (.of_eq hinHand)⟩

/-- A job that a worker begins is in hand, and held as before. -/
theorem held_of_start? [DecidableEq ι] (ho : p.Ordered) (hg : p.generation? n = some g)
    (h : g.start? job = some g') :
    (p.modify n fun _ => g').held.Perm p.held ∧
      (p.modify n fun _ => g').inHand.Perm (p.inHand ++ [(n, job)]) := by
  obtain ⟨hheld, hinHand⟩ := Generation.held_of_start? h
  rw [number_of_generation? hg] at hinHand
  exact ⟨flatMap_same (f := fun _ => g') ho hg hheld,
    flatMap_gain (f := fun _ => g') ho hg (.of_eq hinHand)⟩

/-- A job that a worker ends is neither in hand nor held any more. -/
theorem held_of_finish [DecidableEq ι] (ho : p.Ordered) (hg : p.generation? n = some g)
    (h : job ∈ g.running) :
    p.held.Perm ((p.modify n (·.finish job)).held ++ [(n, job)]) ∧
      p.inHand.Perm ((p.modify n (·.finish job)).inHand ++ [(n, job)]) := by
  obtain ⟨hheld, hinHand⟩ := Generation.held_of_finish h
  rw [number_of_generation? hg] at hheld hinHand
  exact ⟨flatMap_lose (f := (·.finish job)) ho hg hheld,
    flatMap_lose (f := (·.finish job)) ho hg hinHand⟩

/-- A job in hand is held. -/
theorem inHand_sublist (p : Pool ι) : p.inHand.Sublist p.held :=
  List.Sublist.flatMap_right _ fun g _ => (List.sublist_append_right g.waiting g.running).map _

end Pool

end SemanticHighlight
