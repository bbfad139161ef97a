/-
Messages of the interactive flows.

Main definitions:
* `Dialog` — the messages;
* `Dialog.entry` — their keys and wordings.
-/
import BuildDesk.Message.Wording

namespace BuildDesk

open Wording (slot)

/-- What the interactive flows say: prompts, options and diagnostics. -/
inductive Dialog
  | selectJobToOperate | searchAgain | exit | actionFor | jobFallback | actionBuild
  | actionStatus | actionWatch | actionLogs | actionCancel | actionRerunFailed
  | backToSearch | recentJobs | searchAllJobs | jobSearchPrompt | jobSearchPlaceholder
  | selectCandidate | jobNameRequired | jobNameRequiredHint | buildMode | buildWithBranch
  | buildWithCustom | buildWithoutParams | branchSelect | removeCachedBranch
  | typeDifferentBranch | branchName | branchPlaceholder | branchRequired
  | branchRequiredHint | branchRemoved | addCustomParams | paramName | paramNamePlaceholder
  | paramValue | paramValueFor | addAnotherParam | paramNameRequired
  | paramNameRequiredHint | paramAlreadySet | paramAlreadySetHint | nextActionFor
  | actionRerunSame | actionDone | triggerAnotherBuild | actionCancelRunning
  | actionRerunLastFailed | actionBuildNow | checkAnotherJob | targetSuffix
  deriving DecidableEq, Repr

namespace Dialog

/-- The key and both wordings of a message. -/
def entry : Dialog → Wording.Entry
  | .selectJobToOperate => ⟨"select_job_to_operate",
      ["Select a job to operate on"],
      ["작업할 job 선택"]⟩
  | .searchAgain => ⟨"search_again",
      ["Search again"],
      ["다시 검색"]⟩
  | .exit => ⟨"exit",
      ["Exit"],
      ["종료"]⟩
  | .actionFor => ⟨"action_for",
      ["Action for ", slot "label"],
      [slot "label", " 작업 선택"]⟩
  | .jobFallback => ⟨"job_fallback",
      ["job"],
      ["job"]⟩
  | .actionBuild => ⟨"action_build",
      ["Build"],
      ["빌드"]⟩
  | .actionStatus => ⟨"action_status",
      ["Status"],
      ["상태"]⟩
  | .actionWatch => ⟨"action_watch",
      ["Watch"],
      ["진행 확인"]⟩
  | .actionLogs => ⟨"action_logs",
      ["Logs"],
      ["로그"]⟩
  | .actionCancel => ⟨"action_cancel",
      ["Cancel"],
      ["취소"]⟩
  | .actionRerunFailed => ⟨"action_rerun_failed",
      ["Rerun last failed"],
      ["마지막 실패 빌드 재실행"]⟩
  | .backToSearch => ⟨"back_to_search",
      ["Back to search"],
      ["검색으로 돌아가기"]⟩
  | .recentJobs => ⟨"recent_jobs",
      ["Recent jobs"],
      ["최근 job"]⟩
  | .searchAllJobs => ⟨"search_all_jobs",
      ["Search all jobs"],
      ["전체 job 검색"]⟩
  | .jobSearchPrompt => ⟨"job_search_prompt",
      ["Job name or description"],
      ["job 이름 또는 설명"]⟩
  | .jobSearchPlaceholder => ⟨"job_search_placeholder",
      ["e.g. api prod deploy"],
      ["예: api prod deploy"]⟩
  | .selectCandidate => ⟨"select_candidate",
      ["Select a job (press Esc to search again)"],
      ["job 선택 (Esc: 다시 검색)"]⟩
  | .jobNameRequired => ⟨"job_name_required",
      ["Job name is required."],
      ["job 이름이 필요합니다."]⟩
  | .jobNameRequiredHint => ⟨"job_name_required_hint",
      ["Type part of the job name or description to continue."],
      ["job 이름이나 설명의 일부를 입력하세요."]⟩
  | .buildMode => ⟨"build_mode",
      ["Build mode"],
      ["빌드 모드"]⟩
  | .buildWithBranch => ⟨"build_with_branch",
      ["Build with branch parameter"],
      ["브랜치 파라미터로 빌드"]⟩
  | .buildWithCustom => ⟨"build_with_custom",
      ["Build with custom parameters"],
      ["사용자 정의 파라미터로 빌드"]⟩
  | .buildWithoutParams => ⟨"build_without_params",
      ["Build without parameters"],
      ["파라미터 없이 빌드"]⟩
  | .branchSelect => ⟨"branch_select",
      ["Branch name (press Esc for build mode)"],
      ["브랜치 이름 (Esc: 빌드 모드)"]⟩
  | .removeCachedBranch => ⟨"remove_cached_branch",
      ["Remove cached branch"],
      ["캐시된 브랜치 삭제"]⟩
  | .typeDifferentBranch => ⟨"type_different_branch",
      ["Type a different branch"],
      ["다른 브랜치 직접 입력"]⟩
  | .branchName => ⟨"branch_name",
      ["Branch name"],
      ["브랜치 이름"]⟩
  | .branchPlaceholder => ⟨"branch_placeholder",
      ["e.g. main"],
      ["예: main"]⟩
  | .branchRequired => ⟨"branch_required",
      ["Branch is required to trigger a build."],
      ["빌드하려면 브랜치가 필요합니다."]⟩
  | .branchRequiredHint => ⟨"branch_required_hint",
      ["Enter a branch name (e.g. main)."],
      ["브랜치 이름을 입력하세요 (예: main)."]⟩
  | .branchRemoved => ⟨"branch_removed",
      ["Removed cached branch: ", slot "branch"],
      ["캐시에서 브랜치 삭제됨: ", slot "branch"]⟩
  | .addCustomParams => ⟨"add_custom_params",
      ["Add custom parameters?"],
      ["사용자 정의 파라미터를 추가할까요?"]⟩
  | .paramName => ⟨"param_name",
      ["Parameter name"],
      ["파라미터 이름"]⟩
  | .paramNamePlaceholder => ⟨"param_name_placeholder",
      ["e.g. DEPLOY_ENV"],
      ["예: DEPLOY_ENV"]⟩
  | .paramValue => ⟨"param_value",
      ["Parameter value"],
      ["파라미터 값"]⟩
  | .paramValueFor => ⟨"param_value_for",
      ["Value for ", slot "param"],
      [slot "param", " 값"]⟩
  | .addAnotherParam => ⟨"add_another_param",
      ["Add another custom parameter?"],
      ["파라미터를 더 추가할까요?"]⟩
  | .paramNameRequired => ⟨"param_name_required",
      ["Parameter name is required."],
      ["파라미터 이름이 필요합니다."]⟩
  | .paramNameRequiredHint => ⟨"param_name_required_hint",
      ["Enter a parameter name or press Esc to go back."],
      ["파라미터 이름을 입력하거나 Esc로 돌아가세요."]⟩
  | .paramAlreadySet => ⟨"param_already_set",
      ["Parameter already set: ", slot "param"],
      ["파라미터가 이미 설정되어 있습니다: ", slot "param"]⟩
  | .paramAlreadySetHint => ⟨"param_already_set_hint",
      ["Use a different parameter name."],
      ["다른 파라미터 이름을 사용하세요."]⟩
  | .nextActionFor => ⟨"next_action_for",
      ["Next action for ", slot "label"],
      [slot "label", " 후속 작업"]⟩
  | .actionRerunSame => ⟨"action_rerun_same",
      ["Rerun same inputs"],
      ["같은 입력으로 재실행"]⟩
  | .actionDone => ⟨"action_done",
      ["Done"],
      ["완료"]⟩
  | .triggerAnotherBuild => ⟨"trigger_another_build",
      ["Trigger another build?"],
      ["다른 빌드를 실행할까요?"]⟩
  | .actionCancelRunning => ⟨"action_cancel_running",
      ["Cancel running/queued build"],
      ["실행/대기 중인 빌드 취소"]⟩
  | .actionRerunLastFailed => ⟨"action_rerun_last_failed",
      ["Rerun last failed build"],
      ["마지막 실패 빌드 재실행"]⟩
  | .actionBuildNow => ⟨"action_build_now",
      ["Build now"],
      ["지금 빌드"]⟩
  | .checkAnotherJob => ⟨"check_another_job",
      ["Check another job?"],
      ["다른 job을 확인할까요?"]⟩
  | .targetSuffix => ⟨"target_suffix",
      [slot "message", " [", slot "target", "]"],
      [slot "message", " [", slot "target", "]"]⟩

/-- All messages of the group. -/
def all : List Dialog := [
  .selectJobToOperate, .searchAgain, .exit, .actionFor, .jobFallback, .actionBuild,
  .actionStatus, .actionWatch, .actionLogs, .actionCancel, .actionRerunFailed,
  .backToSearch, .recentJobs, .searchAllJobs, .jobSearchPrompt, .jobSearchPlaceholder,
  .selectCandidate, .jobNameRequired, .jobNameRequiredHint, .buildMode, .buildWithBranch,
  .buildWithCustom, .buildWithoutParams, .branchSelect, .removeCachedBranch,
  .typeDifferentBranch, .branchName, .branchPlaceholder, .branchRequired,
  .branchRequiredHint, .branchRemoved, .addCustomParams, .paramName, .paramNamePlaceholder,
  .paramValue, .paramValueFor, .addAnotherParam, .paramNameRequired,
  .paramNameRequiredHint, .paramAlreadySet, .paramAlreadySetHint, .nextActionFor,
  .actionRerunSame, .actionDone, .triggerAnotherBuild, .actionCancelRunning,
  .actionRerunLastFailed, .actionBuildNow, .checkAnotherJob, .targetSuffix]

end Dialog
end BuildDesk
