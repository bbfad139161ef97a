/-
Messages of the commands.

Main definitions:
* `Notice` — the messages;
* `Notice.entry` — their keys and wordings.
-/
import BuildDesk.Message.Wording

namespace BuildDesk

open Wording (slot)

/-- What the commands say: results, questions outside of flows, errors and help. -/
inductive Notice
  | appHelp | debugHelp | nonInteractiveHelp | langHelp | aborted | listHelp
  | listSearchPrompt | listSearchPlaceholder | listTryAgainHint | jobsTitle | columnJob
  | columnUrl | noJobsToShow | refreshConfirm | buildHelp | statusHelp | buildQueued
  | buildTriggered | rerunning | noFailedBuild | noFailedBuildHint | noBuilds
  | unknownAction | watchWaiting | watchCancelled | buildFinished | consoleOutput
  | noRunningBuild | noRunningBuildHint | cancelConfirm | cancelSkipped | buildCancelled
  | jobAndJobUrl | branchAndDefaultBranch | invalidBranchParam | invalidBranchParamHint
  | jobNameRequired | jobNameRequiredHint | missingBranch | missingBranchHint
  | requiresTerminal | requiresTerminalHint | noJobsMatch | noJobsInCache
  | noJobsInCacheHint | waitHelp | logsHelp | cancelHelp | rerunHelp | buildUrlAndTarget
  | buildUrlAndTargetHint | invalidDuration | invalidDurationHint | watchTimedOut
  deriving DecidableEq, Repr

namespace Notice

/-- The key and both wordings of a message. -/
def entry : Notice → Wording.Entry
  | .appHelp => ⟨"app_help",
      ["Search Jenkins jobs and run builds or status checks interactively."],
      ["Jenkins job을 검색하고 빌드/상태 조회를 대화형으로 실행합니다."]⟩
  | .debugHelp => ⟨"debug_help",
      ["Print debug logs (flow transitions, API requests)"],
      ["디버그 로그 출력 (Flow 전이, API 요청)"]⟩
  | .nonInteractiveHelp => ⟨"non_interactive_help",
      ["Never prompt; all inputs must come from options"],
      ["프롬프트 없이 실행 (필요한 값은 옵션으로 전달)"]⟩
  | .langHelp => ⟨"lang_help",
      ["UI language (en, ko)"],
      ["UI 언어 / UI language (en, ko)"]⟩
  | .aborted => ⟨"aborted",
      ["Aborted."],
      ["중단되었습니다."]⟩
  | .listHelp => ⟨"list_help",
      ["Search jobs and act on one"],
      ["job 검색 및 작업 실행"]⟩
  | .listSearchPrompt => ⟨"list_search_prompt",
      ["Search jobs (q to quit)"],
      ["job 검색 (q: 종료)"]⟩
  | .listSearchPlaceholder => ⟨"list_search_placeholder",
      ["Leave empty to list all jobs"],
      ["비워두면 전체 목록"]⟩
  | .listTryAgainHint => ⟨"list_try_again_hint",
      ["Try another query, or leave it empty to list all jobs."],
      ["다른 검색어를 입력하거나 비워두고 전체 목록을 확인하세요."]⟩
  | .jobsTitle => ⟨"jobs_title",
      ["Jenkins jobs (", slot "count", ")"],
      ["Jenkins job (", slot "count", "개)"]⟩
  | .columnJob => ⟨"column_job",
      ["Job"],
      ["Job"]⟩
  | .columnUrl => ⟨"column_url",
      ["URL"],
      ["URL"]⟩
  | .noJobsToShow => ⟨"no_jobs_to_show",
      ["No jobs to show."],
      ["표시할 job이 없습니다."]⟩
  | .refreshConfirm => ⟨"refresh_confirm",
      [slot "reason", " Refresh now?"],
      [slot "reason", " 지금 새로고침할까요?"]⟩
  | .buildHelp => ⟨"build_help",
      ["Trigger a job build"],
      ["job 빌드 트리거"]⟩
  | .statusHelp => ⟨"status_help",
      ["Show the last build status of a job"],
      ["job의 마지막 빌드 상태 조회"]⟩
  | .buildQueued => ⟨"build_queued",
      ["Build queued: ", slot "url"],
      ["빌드가 큐에 등록되었습니다: ", slot "url"]⟩
  | .buildTriggered => ⟨"build_triggered",
      ["Triggered build for ", slot "label", "."],
      [slot "label", " 빌드를 트리거했습니다."]⟩
  | .rerunning => ⟨"rerunning",
      ["Rerunning ", slot "label", " with the parameters of ", slot "number", "."],
      [slot "label", " ", slot "number", " 빌드의 파라미터로 다시 빌드합니다."]⟩
  | .noFailedBuild => ⟨"no_failed_build",
      ["No failed build found for ", slot "label", "."],
      [slot "label", "에 실패한 빌드가 없습니다."]⟩
  | .noFailedBuildHint => ⟨"no_failed_build_hint",
      ["Use `jenkins-cli build` to start a new build."],
      ["다시 빌드하려면 build 명령을 사용하세요."]⟩
  | .noBuilds => ⟨"no_builds",
      ["No builds found for ", slot "label", "."],
      [slot "label", "에 빌드 기록이 없습니다."]⟩
  | .unknownAction => ⟨"unknown_action",
      ["Unknown action: ", slot "action"],
      ["알 수 없는 작업: ", slot "action"]⟩
  | .watchWaiting => ⟨"watch_waiting",
      ["Watching ", slot "label", "... (Ctrl+C to stop)"],
      [slot "label", " 빌드 진행 중... (Ctrl+C로 중단)"]⟩
  | .watchCancelled => ⟨"watch_cancelled",
      ["Stopped watching. The build keeps running."],
      ["watch를 중단했습니다. 빌드는 계속 진행됩니다."]⟩
  | .buildFinished => ⟨"build_finished",
      [slot "label", " #", slot "number", " finished: ", slot "result"],
      [slot "label", " #", slot "number", " 완료: ", slot "result"]⟩
  | .consoleOutput => ⟨"console_output",
      ["Console output: ", slot "url"],
      ["콘솔 출력: ", slot "url"]⟩
  | .noRunningBuild => ⟨"no_running_build",
      ["No running build for ", slot "label", "."],
      [slot "label", "에 실행 중인 빌드가 없습니다."]⟩
  | .noRunningBuildHint => ⟨"no_running_build_hint",
      ["Check the last build with `jenkins-cli status`."],
      ["status로 마지막 빌드 상태를 확인하세요."]⟩
  | .cancelConfirm => ⟨"cancel_confirm",
      ["Stop build #", slot "number", " of ", slot "label", "?"],
      [slot "label", " #", slot "number", " 빌드를 중지할까요?"]⟩
  | .cancelSkipped => ⟨"cancel_skipped",
      ["Build left running."],
      ["빌드를 중지하지 않았습니다."]⟩
  | .buildCancelled => ⟨"build_cancelled",
      ["Stop requested: ", slot "url"],
      ["빌드 중지를 요청했습니다: ", slot "url"]⟩
  | .jobAndJobUrl => ⟨"job_and_job_url",
      ["Provide either --job or --job-url, not both."],
      ["--job과 --job-url 중 하나만 지정하세요."]⟩
  | .branchAndDefaultBranch => ⟨"branch_and_default_branch",
      ["Use either --branch or --default-branch, not both."],
      ["--branch와 --default-branch 중 하나만 지정하세요."]⟩
  | .invalidBranchParam => ⟨"invalid_branch_param",
      ["Invalid --branch-param value."],
      ["--branch-param 값이 올바르지 않습니다."]⟩
  | .invalidBranchParamHint => ⟨"invalid_branch_param_hint",
      ["Pass a parameter name, e.g. `--branch-param BRANCH`."],
      ["파라미터 이름을 지정하세요. 예: `--branch-param BRANCH`"]⟩
  | .jobNameRequired => ⟨"job_name_required",
      ["Job name is required."],
      ["job 이름이 필요합니다."]⟩
  | .jobNameRequiredHint => ⟨"job_name_required_hint",
      ["Pass --job <name> or use --job-url <url>."],
      ["--job <이름> 또는 --job-url <url>을 지정하세요."]⟩
  | .missingBranch => ⟨"missing_branch",
      ["Missing required --branch."],
      ["--branch가 필요합니다."]⟩
  | .missingBranchHint => ⟨"missing_branch_hint",
      ["Pass --branch <name> or --default-branch."],
      ["--branch <이름> 또는 --default-branch를 지정하세요."]⟩
  | .requiresTerminal => ⟨"requires_terminal",
      ["Interactive ", slot "command", " requires a terminal."],
      ["대화형 ", slot "command", "에는 터미널이 필요합니다."]⟩
  | .requiresTerminalHint => ⟨"requires_terminal_hint",
      ["Pass --non-interactive."],
      ["--non-interactive를 지정하세요."]⟩
  | .noJobsMatch => ⟨"no_jobs_match",
      ["No jobs match \"", slot "query", "\"."],
      ["\"", slot "query", "\"와 일치하는 job이 없습니다."]⟩
  | .noJobsInCache => ⟨"no_jobs_in_cache",
      ["No jobs found in cache."],
      ["캐시에 job이 없습니다."]⟩
  | .noJobsInCacheHint => ⟨"no_jobs_in_cache_hint",
      ["Run `jenkins-cli list --refresh` to fetch jobs from Jenkins."],
      ["`jenkins-cli list --refresh`로 Jenkins에서 job 목록을 가져오세요."]⟩
  | .waitHelp => ⟨"wait_help",
      ["Wait for a build to finish (exit 1 on failure, 124 on timeout, 130 when stopped)"],
      ["빌드가 끝날 때까지 대기 (실패 1, 시간 초과 124, 중단 130으로 종료)"]⟩
  | .logsHelp => ⟨"logs_help",
      ["Print a build's console output"],
      ["빌드 콘솔 출력 보기"]⟩
  | .cancelHelp => ⟨"cancel_help",
      ["Stop the running build of a job"],
      ["실행 중인 빌드 중지"]⟩
  | .rerunHelp => ⟨"rerun_help",
      ["Re-trigger the last failed build with its parameters"],
      ["마지막 실패 빌드를 같은 파라미터로 다시 실행"]⟩
  | .buildUrlAndTarget => ⟨"build_url_and_target",
      ["When --build-url is provided, do not pass --job, --job-url, or --queue-url."],
      ["--build-url을 지정하면 --job, --job-url, --queue-url은 함께 쓸 수 없습니다."]⟩
  | .buildUrlAndTargetHint => ⟨"build_url_and_target_hint",
      ["Use a single target at a time."],
      ["대상은 하나만 지정하세요."]⟩
  | .invalidDuration => ⟨"invalid_duration",
      ["Invalid --", slot "option", " value \"", slot "value", "\"."],
      ["--", slot "option", " 값이 올바르지 않습니다: \"", slot "value", "\""]⟩
  | .invalidDurationHint => ⟨"invalid_duration_hint",
      ["Use a duration greater than zero like 500ms, 30s, 5m, or 1h."],
      ["500ms, 30s, 5m, 1h 같은 0보다 큰 값을 사용하세요."]⟩
  | .watchTimedOut => ⟨"watch_timed_out",
      ["Timed out after ", slot "elapsed", " while waiting for ", slot "label", "."],
      [slot "label", " 대기 시간 초과 (", slot "elapsed", ")"]⟩

/-- All messages of the group. -/
def all : List Notice := [
  .appHelp, .debugHelp, .nonInteractiveHelp, .langHelp, .aborted, .listHelp,
  .listSearchPrompt, .listSearchPlaceholder, .listTryAgainHint, .jobsTitle, .columnJob,
  .columnUrl, .noJobsToShow, .refreshConfirm, .buildHelp, .statusHelp, .buildQueued,
  .buildTriggered, .rerunning, .noFailedBuild, .noFailedBuildHint, .noBuilds,
  .unknownAction, .watchWaiting, .watchCancelled, .buildFinished, .consoleOutput,
  .noRunningBuild, .noRunningBuildHint, .cancelConfirm, .cancelSkipped, .buildCancelled,
  .jobAndJobUrl, .branchAndDefaultBranch, .invalidBranchParam, .invalidBranchParamHint,
  .jobNameRequired, .jobNameRequiredHint, .missingBranch, .missingBranchHint,
  .requiresTerminal, .requiresTerminalHint, .noJobsMatch, .noJobsInCache,
  .noJobsInCacheHint, .waitHelp, .logsHelp, .cancelHelp, .rerunHelp, .buildUrlAndTarget,
  .buildUrlAndTargetHint, .invalidDuration, .invalidDurationHint, .watchTimedOut]

end Notice
end BuildDesk
