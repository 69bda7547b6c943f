import OtelLogger.AppendFile

/-!
The recovery of a tail as the loop that it is, with no bound on its rounds. It ends for every file
and every chunk size, and what it leaves is the longest prefix that ends in a newline.
-/

namespace OtelLogger

open Delimited

namespace OpenFile

/-! ### The loop -/

/-- The search for the end of the last line, round after round until one of them stops it. -/
inductive TailScan (chunk : ℕ) : OpenFile → ℕ → Except IoError ℕ × OpenFile → Prop
  | exhausted {file : OpenFile} : TailScan chunk file 0 (.ok 0, file)
  | unreadable {file next : OpenFile} {stop : ℕ} {error : IoError} (remains : stop ≠ 0)
      (read : file.readAt (stop - chunk) stop = (.error error, next)) :
      TailScan chunk file stop (.error error, next)
  | found {file next : OpenFile} {stop position : ℕ} {buffer : Bytes} (remains : stop ≠ 0)
      (read : file.readAt (stop - chunk) stop = (.ok buffer, next))
      (present : rposition (· = newline) buffer = some position) :
      TailScan chunk file stop (.ok (stop - chunk + position + 1), next)
  | absent {file next : OpenFile} {stop : ℕ} {buffer : Bytes}
      {result : Except IoError ℕ × OpenFile} (remains : stop ≠ 0)
      (read : file.readAt (stop - chunk) stop = (.ok buffer, next))
      (missing : rposition (· = newline) buffer = none)
      (later : TailScan chunk next (stop - chunk) result) : TailScan chunk file stop result

/-- A recovery that ends, and how. -/
inductive RecoversTail (chunk : ℕ) (file : OpenFile) : Except IoError Unit × OpenFile → Prop
  | unmeasured {next : OpenFile} {error : IoError}
      (measured : file.metadataLen = (.error error, next)) :
      RecoversTail chunk file (.error error, next)
  | unreadable {opened next : OpenFile} {originalLen : ℕ} {error : IoError}
      (measured : file.metadataLen = (.ok originalLen, opened))
      (scan : TailScan chunk opened originalLen (.error error, next)) :
      RecoversTail chunk file (.error error, next)
  | kept {opened next : OpenFile} {originalLen : ℕ}
      (measured : file.metadataLen = (.ok originalLen, opened))
      (scan : TailScan chunk opened originalLen (.ok originalLen, next)) :
      RecoversTail chunk file (.ok (), next)
  | cut {opened next : OpenFile} {originalLen validLen : ℕ}
      (measured : file.metadataLen = (.ok originalLen, opened))
      (scan : TailScan chunk opened originalLen (.ok validLen, next))
      (shorter : validLen ≠ originalLen) :
      RecoversTail chunk file (next.truncate validLen)

section Loop

variable {chunk : ℕ}

theorem TailScan.eq_lastLineEnd (positive : 0 < chunk) {file : OpenFile} {stop : ℕ}
    {result : Except IoError ℕ × OpenFile} (scan : TailScan chunk file stop result) :
    ∀ rounds, stop ≤ rounds → result = lastLineEnd chunk rounds file stop := by
  induction scan with
  | exhausted =>
      intro rounds enough
      cases rounds with
      | zero => rfl
      | succ rounds => rw [lastLineEnd, if_pos rfl]
  | @unreadable file next stop error remains read =>
      intro rounds enough
      obtain ⟨rounds, rfl⟩ : ∃ fewer, rounds = fewer + 1 := ⟨rounds - 1, by omega⟩
      rw [lastLineEnd, if_neg remains]
      simp only [read]
  | @found file next stop position buffer remains read present =>
      intro rounds enough
      obtain ⟨rounds, rfl⟩ : ∃ fewer, rounds = fewer + 1 := ⟨rounds - 1, by omega⟩
      rw [lastLineEnd, if_neg remains]
      simp only [read, present]
  | @absent file next stop buffer result remains read missing later ih =>
      intro rounds enough
      obtain ⟨rounds, rfl⟩ : ∃ fewer, rounds = fewer + 1 := ⟨rounds - 1, by omega⟩
      rw [lastLineEnd, if_neg remains]
      simp only [read, missing]
      exact ih rounds (by omega)

/-- Every round takes at least one byte off what is left to search, so the loop ends. -/
theorem lastLineEnd_scan (positive : 0 < chunk) (rounds : ℕ) :
    ∀ (file : OpenFile) (stop : ℕ), stop ≤ rounds →
      TailScan chunk file stop (lastLineEnd chunk rounds file stop) := by
  induction rounds with
  | zero =>
      intro file stop enough
      obtain rfl : stop = 0 := by omega
      exact .exhausted
  | succ rounds ih =>
      intro file stop enough
      rw [lastLineEnd]
      split
      · rename_i done
        subst stop
        exact .exhausted
      · rename_i remains
        dsimp only
        cases read : file.readAt (stop - chunk) stop with
        | mk outcome next =>
            cases outcome with
            | error error => exact .unreadable remains read
            | ok buffer =>
                dsimp only
                cases position : rposition (· = newline) buffer with
                | some position => exact .found remains read position
                | none => exact .absent remains read position (ih next _ (by omega))

theorem recoversTail_iff (positive : 0 < chunk) (file : OpenFile)
    (result : Except IoError Unit × OpenFile) :
    RecoversTail chunk file result ↔ result = file.recoverTail chunk := by
  constructor
  · intro recovers
    cases recovers with
    | unmeasured measured => simp only [recoverTail, measured]
    | unreadable measured scan =>
        simp only [recoverTail, measured, ← scan.eq_lastLineEnd positive _ le_rfl]
    | kept measured scan =>
        simp only [recoverTail, measured, ← scan.eq_lastLineEnd positive _ le_rfl]
        rw [if_neg (not_not.mpr rfl)]
    | cut measured scan shorter =>
        simp only [recoverTail, measured, ← scan.eq_lastLineEnd positive _ le_rfl]
        rw [if_pos shorter]
  · rintro rfl
    unfold recoverTail
    cases measured : file.metadataLen with
    | mk outcome opened =>
        cases outcome with
        | error error => exact .unmeasured measured
        | ok originalLen =>
            have scan := lastLineEnd_scan positive originalLen opened originalLen le_rfl
            dsimp only
            generalize lastLineEnd chunk originalLen opened originalLen = search at scan ⊢
            rcases search with ⟨error | validLen, next⟩
            · exact .unreadable measured scan
            · dsimp only
              split
              · rename_i shorter
                exact .cut measured scan shorter
              · rename_i same
                rw [not_not] at same
                subst validLen
                exact .kept measured scan

/-! ### Looking changes nothing -/

theorem readAt_effects (file : OpenFile) (start stop : ℕ) :
    (file.readAt start stop).2.effects = file.effects := by
  have sought : file.seek.2.effects = file.effects := by
    rw [seek, attempt_snd]
    rfl
  unfold readAt
  generalize file.seek = seeking at sought ⊢
  rcases seeking with ⟨error | done, next⟩
  · exact sought
  · dsimp only at sought ⊢
    rw [attempt_snd]
    exact sought

theorem TailScan.effects {file : OpenFile} {stop : ℕ} {result : Except IoError ℕ × OpenFile}
    (scan : TailScan chunk file stop result) : result.2.effects = file.effects := by
  induction scan with
  | exhausted => rfl
  | @unreadable file next stop error _ read =>
      have same := file.readAt_effects (stop - chunk) stop
      rwa [read] at same
  | @found file next stop position buffer _ read _ =>
      have same := file.readAt_effects (stop - chunk) stop
      rwa [read] at same
  | @absent file next stop buffer result _ read _ _ ih =>
      have same := file.readAt_effects (stop - chunk) stop
      rw [read] at same
      exact ih.trans same

/-- A file of complete lines is not truncated, also when an operation fails. -/
theorem RecoversTail.untouched (positive : 0 < chunk) {file : OpenFile}
    {result : Except IoError Unit × OpenFile} (recovers : RecoversTail chunk file result)
    (complete : Complete newline file.bytes) :
    result.2.effects = file.effects ∧ result.2.bytes = file.bytes := by
  obtain ⟨_, left, _⟩ := file.recoverTail_stays positive
  rw [← (recoversTail_iff positive file result).mp recovers, complete.completePart_eq, or_self]
    at left
  refine ⟨?_, left⟩
  have looked : file.metadataLen.2.effects = file.effects := by
    rw [metadataLen, attempt_snd]
    rfl
  cases recovers with
  | unmeasured measured =>
      rw [measured] at looked
      exact looked
  | unreadable measured scan | kept measured scan =>
      rw [measured] at looked
      exact scan.effects.trans looked
  | @cut opened next originalLen validLen measured scan shorter =>
      have length : originalLen = file.bytes.length :=
        file.attempt_ok (congrArg Prod.fst measured)
      have same : opened.bytes = file.bytes := by
        have looks := file.looks_attempt file.bytes.length
        rw [← metadataLen, measured] at looks
        exact looks.bytes
      obtain ⟨_, ends⟩ := lastLineEnd_looks positive originalLen opened originalLen le_rfl
        (by rw [same, length])
      rw [← scan.eq_lastLineEnd positive _ le_rfl] at ends
      obtain ⟨inside, lines⟩ := ends validLen rfl
      rw [same, length, List.take_length, complete.completePart_eq] at lines
      have lengths := congrArg List.length lines
      rw [List.length_take] at lengths
      omega

/-! ### Without failures -/

end Loop

end OpenFile

/-- No operation of the disk fails. -/
def Disk.Works (disk : Disk) : Prop :=
  ∀ error, Outcome.failed error ∉ disk.outcomes

namespace OpenFile

theorem works_advance {disk : Disk} (works : disk.Works) : disk.advance.Works := by
  intro error failed
  exact works error (List.mem_of_mem_tail failed)

theorem works_outcome {disk : Disk} (works : disk.Works) (error : IoError) :
    disk.outcome ≠ .failed error := by
  intro failed
  unfold Disk.outcome at failed
  cases outcomes : disk.outcomes with
  | nil => simp [outcomes] at failed
  | cons first rest =>
      rw [outcomes, List.headD_cons] at failed
      exact works error (by rw [outcomes, failed]; exact List.mem_cons_self)

theorem attempt_works {α : Type*} {file : OpenFile} (works : file.disk.Works) (value : α) :
    file.attempt value = (.ok value, file.withDisk file.disk.advance) := by
  unfold attempt Disk.attempt
  cases outcome : file.disk.outcome with
  | failed error => exact absurd outcome (works_outcome works error)
  | done | short => rfl

theorem truncate_works {file : OpenFile} (works : file.disk.Works) (len : ℕ) :
    (file.truncate len).1 = .ok () := by
  have later : ((file.withDisk file.disk.advance).perform (.cut len)).disk.Works :=
    works_advance works
  have sought : ((file.withDisk file.disk.advance).perform (.cut len)).seek.1 = .ok () := by
    rw [seek, attempt_works later]
  unfold truncate
  cases outcome : file.disk.outcome with
  | failed error => exact absurd outcome (works_outcome works error)
  | done | short => exact sought

theorem readAt_works {file : OpenFile} (works : file.disk.Works) (start stop : ℕ) :
    ∃ buffer next, file.readAt start stop = (.ok buffer, next) ∧ next.disk.Works := by
  have sought := attempt_works works ()
  have later : (file.withDisk file.disk.advance).disk.Works := works_advance works
  have next : ((file.withDisk file.disk.advance).withDisk
      (file.withDisk file.disk.advance).disk.advance).disk.Works := works_advance later
  have read : file.readAt start stop = (.ok ((file.bytes.take stop).drop start),
      (file.withDisk file.disk.advance).withDisk
        (file.withDisk file.disk.advance).disk.advance) := by
    rw [readAt, seek, sought]
    exact attempt_works later _
  exact ⟨_, _, read, next⟩

theorem TailScan.works {chunk : ℕ} {file : OpenFile} {stop : ℕ}
    {result : Except IoError ℕ × OpenFile} (scan : TailScan chunk file stop result)
    (working : file.disk.Works) : ∃ validLen, result.1 = .ok validLen ∧ result.2.disk.Works := by
  induction scan with
  | exhausted => exact ⟨0, rfl, working⟩
  | @unreadable file next stop error _ read =>
      obtain ⟨buffer, other, again, _⟩ := readAt_works working (stop - chunk) stop
      simp [read] at again
  | @found file next stop position buffer _ read _ =>
      obtain ⟨other, after, again, works⟩ := readAt_works working (stop - chunk) stop
      rw [read, Prod.mk.injEq] at again
      exact ⟨_, rfl, again.2 ▸ works⟩
  | @absent file next stop buffer result _ read _ _ ih =>
      obtain ⟨other, after, again, works⟩ := readAt_works working (stop - chunk) stop
      rw [read, Prod.mk.injEq] at again
      exact ih (again.2 ▸ works)

theorem RecoversTail.works {chunk : ℕ} {file : OpenFile}
    {result : Except IoError Unit × OpenFile} (recovers : RecoversTail chunk file result)
    (working : file.disk.Works) : result.1 = .ok () := by
  have measures := attempt_works working file.bytes.length
  rw [← metadataLen] at measures
  have later : (file.withDisk file.disk.advance).disk.Works := works_advance working
  cases recovers with
  | unmeasured measured =>
      rw [measures] at measured
      simp at measured
  | unreadable measured scan =>
      rw [measures, Prod.mk.injEq] at measured
      obtain ⟨validLen, found, _⟩ := scan.works (measured.2 ▸ later)
      simp at found
  | kept => rfl
  | cut measured scan shorter =>
      rw [measures, Prod.mk.injEq] at measured
      obtain ⟨_, _, works⟩ := scan.works (measured.2 ▸ later)
      exact truncate_works works _

/-- For every file and every chunk size the recovery ends. Unless an operation fails, it leaves the
longest prefix that is empty or ends in a newline; complete lines it never truncates. -/
theorem recoverTail_longest {chunk : ℕ} (positive : 0 < chunk) (file : OpenFile) :
    (∃ result, RecoversTail chunk file result) ∧
      ∀ result, RecoversTail chunk file result →
        (file.disk.Works → result.1 = .ok ()) ∧
        (result.1 = .ok () →
          result.2.bytes <+: file.bytes ∧ Complete newline result.2.bytes ∧
            (∀ lines, lines <+: file.bytes → Complete newline lines → lines <+: result.2.bytes) ∧
            (newline ∉ file.bytes → result.2.bytes = [])) ∧
        (Complete newline file.bytes →
          result.2.effects = file.effects ∧ result.2.bytes = file.bytes) := by
  refine ⟨⟨_, (recoversTail_iff positive file _).mpr rfl⟩, ?_⟩
  intro result recovers
  refine ⟨recovers.works, ?_, recovers.untouched positive⟩
  intro done
  obtain ⟨_, _, lines⟩ := file.recoverTail_stays positive
  rw [← (recoversTail_iff positive file result).mp recovers] at lines
  rw [lines done]
  have begins : completePart newline file.bytes <+: file.bytes := completePart_prefix _
  exact ⟨begins, completePart_complete _, fun _ => Complete.prefix_completePart,
    completePart_of_notMem⟩

/-- A newline at the end of a chunk, with unfinished text after it. -/
theorem recoverTail_longest_boundary :
    let blank : OpenFile := { disk := (Disk.blank []).create "log", inode := 0 }
    let file := blank.perform (.extend [97, 10, 98, 99])
    ∃ result, RecoversTail 2 file result ∧ result.1 = .ok () ∧
      result.2.bytes <+: [97, 10, 98, 99] ∧ [97, 10] <+: result.2.bytes := by
  intro blank file
  obtain ⟨⟨result, recovers⟩, every⟩ := recoverTail_longest (by decide : 0 < 2) file
  obtain ⟨works, longest, _⟩ := every result recovers
  have done : result.1 = .ok () := works fun error failed => by cases failed
  have content : file.bytes = [97, 10, 98, 99] := by decide
  obtain ⟨begins, _, covers, _⟩ := longest done
  rw [content] at begins covers
  exact ⟨result, recovers, done, begins, covers [97, 10] (by decide) (Or.inr ⟨[97], rfl⟩)⟩

end OpenFile

end OtelLogger
