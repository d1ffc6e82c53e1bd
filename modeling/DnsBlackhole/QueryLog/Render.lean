/-
  The rows of the query log as HTML (`query-log-render.ts`).

  A template literal is the list of its parts: what is written in it, and what is put
  in, escaped or as it is.  What is put in as it is are fixed texts, their
  translations, and numbers.
-/
import Mathlib.Data.List.Infix
import DnsBlackhole.Lib.Html
import DnsBlackhole.QueryLog.Record

namespace DnsBlackhole.QueryLog
open Lib (Html.Part Html.Plain)
open Lib.Html

/-! ## What the templates rely on -/

/-- The texts whose translations are not escaped. -/
def unescapedTexts : List Text :=
  ["查看请求详情", "放行", "拦截", "重写", "查看响应详情", "失败", "已拦截", "已拒绝", "已处理",
    "TTL {p0} 秒", "响应记录", "响应记录内容无法解析", "另有 {p0} 条记录未写入日志摘要",
    "{p0} 毫秒"].map String.toList

/-- The dictionary of a language. -/
structure Dictionary where
  /-- What it gives for a text, or else the text. -/
  lookup : Text → Text
  plain : ∀ text ∈ unescapedTexts, Plain (lookup text)

/-- The dictionary of the language that the texts are written in. -/
def chinese : Dictionary where
  lookup := id
  plain := by decide

/-- How numbers are written (`format.ts`). -/
structure Formats (ν : Type*) where
  formatCount : ℕ → Text
  /-- The number in `formatElapsedMs`. -/
  elapsed : ν → Text
  isZero : ν → Bool
  formatLogTime : ℕ → Text
  formatLogDate : ℕ → Text
  plain_formatCount : ∀ n, Plain (formatCount n)
  plain_elapsed : ∀ duration, Plain (elapsed duration)

structure QueryLogRenderOptions where
  clientDisplayName : Option Text → Option Text
  formatClientLabel : Option Text → Text
  filterNames : Text → Option Text

/-- The text is there, and not empty. -/
def truthy (text : Option Text) : Option Text := text.filter (· ≠ [])

section
variable {ν : Type*} (dictionary : Dictionary) (formats : Formats ν)

def tr (text : String) : Text := translate dictionary.lookup text.toList []

/-- `t` with one parameter. -/
def tr₁ (text : String) (p0 : Text) : Text :=
  translate dictionary.lookup text.toList [("p0".toList, p0)]

def formatElapsedMs (duration : ν) : Text := tr₁ dictionary "{p0} 毫秒" (formats.elapsed duration)

/-! ## Labels -/

/-- `DNS_QUERY_TYPE_LABELS` -/
def dnsQueryTypeName : ℕ → Option String
  | 1 => "A" | 2 => "NS" | 5 => "CNAME" | 6 => "SOA" | 12 => "PTR" | 15 => "MX" | 16 => "TXT"
  | 28 => "AAAA" | 33 => "SRV" | 41 => "OPT" | 43 => "DS" | 46 => "RRSIG" | 47 => "NSEC"
  | 48 => "DNSKEY" | 52 => "TLSA" | 64 => "SVCB" | 65 => "HTTPS" | 255 => "ANY"
  | _ => none

def dnsQueryTypeLabel : Option ℕ → Text
  | none => tr dictionary "类型未记录"
  | some queryType =>
    match dnsQueryTypeName queryType with
    | some name => name.toList
    | none => "TYPE".toList ++ numberText queryType

def dnsQueryTypeDetail : Option ℕ → Text
  | none => tr dictionary "旧日志未记录"
  | some queryType =>
    dnsQueryTypeLabel dictionary (some queryType) ++ '（' :: numberText queryType ++ ['）']

def dnsQueryClassLabel : Option ℕ → Text
  | none => tr dictionary "旧日志未记录"
  | some 1 => tr dictionary "IN（互联网）"
  | some 3 => tr dictionary "CH（Chaos）"
  | some 4 => tr dictionary "HS（Hesiod）"
  | some 255 => tr dictionary "ANY（任意类别）"
  | some queryClass => "CLASS".toList ++ numberText queryClass

def dnsResponseCodeName : ℕ → String
  | 0 => "NOERROR" | 1 => "FORMERR" | 2 => "SERVFAIL" | 3 => "NXDOMAIN" | 4 => "NOTIMP"
  | 5 => "REFUSED" | 6 => "YXDOMAIN" | 7 => "YXRRSET" | 8 => "NXRRSET" | 9 => "NOTAUTH"
  | 10 => "NOTZONE" | _ => "RCODE"

def dnsResponseCodeLabel (code : ℕ) : Text :=
  translate dictionary.lookup "{p0}（{p1}）".toList
    [("p0".toList, (dnsResponseCodeName code).toList), ("p1".toList, numberText code)]

/-- Where the response comes from; `none` is a local response without a source. -/
def queryLogResponseSource (record : QueryLogRecord ν) : Option ResponseSource :=
  if record.responseSource.isSome then record.responseSource
  else if record.blocked then some .blocked
  else if (record.error.map fun error => decide ("ANY 查询".toList <:+: error)).getD false then
    some .refused
  else if (truthy record.upstreamServer).isSome then some .upstream
  else if (record.upstreamDurationMs.map formats.isZero).getD false then some .cache
  else none

def queryLogResponseSourceLabel (record : QueryLogRecord ν) : Text :=
  match queryLogResponseSource formats record with
  | some .upstream => tr dictionary "上游 DNS"
  | some .cache => tr dictionary "DNS 缓存"
  | some .rewrite => tr dictionary "本地 DNS 重写"
  | some .blocked => tr dictionary "过滤器"
  | some .refused => tr dictionary "本地拒绝"
  | some .localReverse => tr dictionary "本地反查"
  | none => tr dictionary "本地响应（旧日志未记录来源）"

/-- The label of a status and the name of its class. -/
def queryLogStatus (record : QueryLogRecord ν) : Text × Text :=
  if record.failed then (tr dictionary "失败", "failed".toList)
  else if record.blocked then (tr dictionary "已拦截", "blocked".toList)
  else if queryLogResponseSource formats record = some .refused then
    (tr dictionary "已拒绝", "refused".toList)
  else (tr dictionary "已处理", "processed".toList)

def queryLogResponseDetail (record : QueryLogRecord ν) (filterNames : Text → Option Text) : Text :=
  match if record.failed then truthy record.error else none with
  | some error => error
  | none =>
    match queryLogResponseSource formats record with
    | some .upstream =>
      match truthy record.upstreamServer with
      | some server => tr₁ dictionary "上游：{p0}" server
      | none => tr dictionary "上游 DNS 解析"
    | some .cache => tr dictionary "DNS 缓存命中"
    | some .rewrite => tr dictionary "本地 DNS 重写"
    | some .blocked =>
      match truthy record.ruleSource with
      | some source =>
        tr₁ dictionary "过滤器：{p0}" (blocklistSourceLabel dictionary.lookup source filterNames)
      | none => tr dictionary "过滤器拦截"
    | some .refused => record.error.getD (tr dictionary "本地拒绝响应")
    | some .localReverse => tr dictionary "私有地址反查，未向上游转发"
    | none => tr dictionary "本地响应（旧日志）"

/-! ## Templates -/

def markup (text : String) : Part := .markup text.toList

def renderLogEyeIcon (className : Text) : List Part :=
  [markup "\n    <svg class=\"log-eye-icon ", .plain className,
    markup "\" viewBox=\"0 0 24 24\" aria-hidden=\"true\" focusable=\"false\">\n      ",
    markup "<path d=\"M2.75 12c1.95-3.25 5.2-5.25 9.25-5.25s7.3 2 9.25 5.25c-1.95 3.25-5.2 ",
    markup "5.25-9.25 5.25S4.7 15.25 2.75 12Z\"></path>\n      ",
    markup "<circle cx=\"12\" cy=\"12\" r=\"2.75\"></circle>\n      ",
    markup "<path d=\"M4.75 19.25 19.25 4.75\"></path>\n    </svg>\n  "]

def renderLogQuestionIcon : List Part :=
  [markup "\n    <svg class=\"log-question-icon\" viewBox=\"0 0 24 24\" aria-hidden=\"true\" ",
    markup "focusable=\"false\">\n      <circle cx=\"12\" cy=\"12\" r=\"8.75\"></circle>\n      ",
    markup "<path d=\"M9.7 9.35a2.45 2.45 0 0 1 4.7.95c0 1.9-2.4 2.1-2.4 3.65\"></path>\n      ",
    markup "<path d=\"M12 17.25h.01\"></path>\n    </svg>\n  "]

/-- A label and its value in a popover. -/
def renderDetailRow (row : Text × Text) : List Part :=
  [markup "\n          <div>\n            <dt>", .value row.1,
    markup "</dt>\n            <dd title=\"", .value row.2, markup "\">", .value row.2,
    markup "</dd>\n          </div>\n        "]

def renderPopoverStart (popoverClass title : Text) : List Part :=
  [markup "\n    <div class=\"log-detail-popover", .plain popoverClass,
    markup "\" role=\"tooltip\">\n      <strong>", .value title,
    markup "</strong>\n      <dl>\n        "]

def renderLogDetailPopover (title : Text) (rows : List (Text × Text)) (extraContent : List Part) :
    List Part :=
  renderPopoverStart (if print extraContent = [] then [] else " log-response-popover".toList)
    title ++
  rows.flatMap renderDetailRow ++
  [markup "\n      </dl>\n      "] ++ extraContent ++ [markup "\n    </div>\n  "]

def renderAnswerRow (recordType value ttl : Text) : List Part :=
  [markup "\n    <div class=\"log-response-answer\">\n      <span>", .value recordType,
    markup "</span>\n      <code title=\"", .value value, markup "\">", .value value,
    markup "</code>\n      <small>", .plain ttl, markup "</small>\n    </div>\n  "]

def renderAnswer (answer : QueryLogResponseAnswer) : List Part :=
  renderAnswerRow (dnsQueryTypeLabel dictionary (some answer.recordType)) answer.value
    (tr₁ dictionary "TTL {p0} 秒" (formats.formatCount answer.ttl))

def renderParagraph (text : Text) : List Part := [markup "<p>", .plain text, markup "</p>"]

def renderAnswersStart (heading : Text) : List Part :=
  [markup "\n    <section class=\"log-response-answers\">\n      <strong>", .plain heading,
    markup "</strong>\n      <div class=\"log-response-answer-list\">\n        "]

def renderQueryLogResponseAnswers (record : QueryLogRecord ν) : List Part :=
  match record.response with
  | none => []
  | some response =>
    if response.answerCount = 0 then []
    else
      let omitted := response.answerCount - response.answers.length
      let records := response.answers.flatMap (renderAnswer dictionary formats)
      renderAnswersStart (tr dictionary "响应记录") ++
      (if print records = [] then renderParagraph (tr dictionary "响应记录内容无法解析")
        else records) ++
      [markup "\n      </div>\n      "] ++
      (if 0 < omitted then renderParagraph
          (tr₁ dictionary "另有 {p0} 条记录未写入日志摘要" (formats.formatCount omitted))
        else []) ++
      [markup "\n    </section>\n  "]

/-- The transport of a record, or a text that it is not known. -/
def transportLabel (record : QueryLogRecord ν) (unknown : String) : Text :=
  (record.transport.map (·.toUpperCase)).getD (tr dictionary unknown)

def renderQueryLogRequestDetail (record : QueryLogRecord ν)
    (formatClientLabel : Option Text → Text) : List Part :=
  renderLogDetailPopover (tr dictionary "请求详情")
    [(tr dictionary "时间", formats.formatLogTime record.timestamp),
      (tr dictionary "日期", formats.formatLogDate record.timestamp),
      (tr dictionary "域名", record.domain),
      (tr dictionary "查询类型", dnsQueryTypeDetail dictionary record.queryType),
      (tr dictionary "查询类别", dnsQueryClassLabel dictionary record.queryClass),
      (tr dictionary "传输协议", transportLabel dictionary record "旧日志未记录"),
      (tr dictionary "客户端", formatClientLabel record.clientIp)] []

/-- The rows of the popover with the response. -/
def responseDetailRows (record : QueryLogRecord ν) (statusLabel : Text)
    (filterNames : Text → Option Text) : List (Text × Text) :=
  [(tr dictionary "状态", statusLabel),
    (tr dictionary "响应来源", queryLogResponseSourceLabel dictionary formats record)] ++
  (match record.response with
    | some response =>
      [(tr dictionary "响应代码", dnsResponseCodeLabel dictionary response.code),
        (tr dictionary "响应记录",
          tr₁ dictionary "{p0} 条" (formats.formatCount response.answerCount))]
    | none =>
      [(tr dictionary "响应代码",
        if record.failed then tr dictionary "无响应" else tr dictionary "旧日志未记录")]) ++
  ((truthy record.upstreamServer).map fun server =>
    (tr dictionary "上游服务器", server)).toList ++
  (record.upstreamDurationMs.map fun duration =>
    (tr dictionary "上游耗时", formatElapsedMs dictionary formats duration)).toList ++
  (record.processingDurationMs.map fun duration =>
    (tr dictionary "总处理耗时", formatElapsedMs dictionary formats duration)).toList ++
  (if (record.response.map (·.truncated)).getD false then
    [(tr dictionary "截断响应", tr dictionary "是（TC 标志）")] else []) ++
  ((truthy record.error).map fun error =>
    (if record.failed then tr dictionary "错误" else tr dictionary "说明", error)).toList ++
  (if record.blocked then
    [(tr dictionary "命中规则", record.matchedRule.getD (tr dictionary "旧日志未记录")),
      (tr dictionary "来源清单",
        ((truthy record.ruleSource).map fun source =>
          blocklistSourceLabel dictionary.lookup source filterNames).getD
            (tr dictionary "旧日志未记录")),
      (tr dictionary "规则类型", record.ruleType.getD (tr dictionary "旧日志未记录")),
      (tr dictionary "important 覆盖",
        if record.importantOverrode then tr dictionary "是" else tr dictionary "否"),
      ("allowlist".toList, record.allowlistRule.getD (tr dictionary "无"))]
  else [])

def renderQueryLogResponseDetail (record : QueryLogRecord ν) (statusLabel : Text)
    (filterNames : Text → Option Text) : List Part :=
  renderLogDetailPopover (tr dictionary "响应详情")
    (responseDetailRows dictionary formats record statusLabel filterNames)
    (renderQueryLogResponseAnswers dictionary formats record)

/-- `<strong>` with a text. -/
def strong (text : Text) : List Part := [markup "<strong>", .value text, markup "</strong>"]

/-- The name of a client, where it is one and not the address itself. -/
def clientLabel (ip : Text) (name : Option Text) : Option Text :=
  (truthy name).filter (· ≠ ip)

def renderClientCell (ip : Option Text) (clientDisplayName : Option Text → Option Text) :
    List Part :=
  let name := clientDisplayName ip
  match truthy ip with
  | none => strong (name.getD (tr dictionary "未知客户端"))
  | some ip =>
    match clientLabel ip name with
    | some label => strong label ++ [markup "<span>", .value ip, markup "</span>"]
    | none => strong ip

/-- The line under the domain. -/
def requestMeta (record : QueryLogRecord ν) : Text :=
  Text.join ([dnsQueryTypeLabel dictionary record.queryType,
      transportLabel dictionary record "协议未记录"] ++
    (if record.queryClass.isSome ∧ record.queryClass ≠ some 1 then
      [dnsQueryClassLabel dictionary record.queryClass] else [])) " · ".toList

/-- The duration in the row, if one was measured. -/
def durationText (record : QueryLogRecord ν) : Text :=
  ((record.processingDurationMs.or record.upstreamDurationMs).map
    (formatElapsedMs dictionary formats)).getD []

def renderRowStart (rowClass time date detailsLabel : Text) : List Part :=
  [markup "\n    <div class=\"query-log-row", .plain rowClass,
    markup "\" role=\"row\">\n      <div class=\"log-time\" role=\"cell\">\n        <strong>",
    .value time, markup "</strong>\n        <span>", .value date,
    markup "</span>\n      </div>\n      <div class=\"log-request\" role=\"cell\">\n        ",
    markup "<div class=\"log-detail-anchor\">\n          <button class=\"log-detail-trigger\" ",
    markup "type=\"button\" aria-label=\"", .plain detailsLabel, markup "\">\n            "]

def renderRowRequest (domain requestMeta action actionLabel rewriteLabel : Text) : List Part :=
  [markup "\n        </div>\n        <div class=\"log-request-content\">\n          ",
    markup "<strong title=\"", .value domain, markup "\">", .value domain,
    markup "</strong>\n          <div class=\"log-request-meta\">\n            <span>",
    .value requestMeta, markup "</span>\n            <div class=\"log-rule-actions\">\n",
    markup "              <button data-log-rule-action=\"", .plain action,
    markup "\" data-domain=\"", .value domain, markup "\" type=\"button\">", .plain actionLabel,
    markup "</button>\n              <button data-log-rule-action=\"rewrite\" data-domain=\"",
    .value domain, markup "\" type=\"button\">", .plain rewriteLabel,
    markup "</button>\n            </div>\n          </div>\n        </div>\n      </div>\n",
    markup "      <div class=\"log-response\" role=\"cell\">\n        ",
    markup "<div class=\"log-response-layout\">\n          ",
    markup "<div class=\"log-detail-anchor log-response-detail-anchor\">\n            "]

def renderDetailsButton (detailsLabel : Text) : List Part :=
  [markup "<button class=\"log-detail-trigger\" type=\"button\" aria-label=\"",
    .plain detailsLabel, markup "\">\n              "]

def renderRowResponse (className statusLabel detail : Text) : List Part :=
  [markup "\n          </div>\n          <div class=\"log-response-summary\">\n            ",
    markup "<strong class=\"", .plain className, markup "\">", .plain statusLabel,
    markup "</strong>\n            <span title=\"", .value detail, markup "\">", .value detail,
    markup "</span>\n            "]

def renderDuration (duration : Text) : List Part :=
  if duration = [] then [] else [markup "<small>", .plain duration, markup "</small>"]

/-- A row as far as the cell of the client. -/
def queryLogRowStart (record : QueryLogRecord ν) (options : QueryLogRenderOptions) : List Part :=
  let status := queryLogStatus dictionary formats record
  let rowClass := if record.failed then " failed".toList
    else if record.blocked then " blocked".toList else []
  renderRowStart rowClass (formats.formatLogTime record.timestamp)
    (formats.formatLogDate record.timestamp) (tr dictionary "查看请求详情") ++
  renderLogEyeIcon status.2 ++ [markup "\n          </button>\n          "] ++
  renderQueryLogRequestDetail dictionary formats record options.formatClientLabel ++
  renderRowRequest record.domain (requestMeta dictionary record)
    (if record.blocked then "allow".toList else "block".toList)
    (if record.blocked then tr dictionary "放行" else tr dictionary "拦截")
    (tr dictionary "重写") ++
  renderDetailsButton (tr dictionary "查看响应详情") ++
  renderLogQuestionIcon ++ [markup "\n            </button>\n            "] ++
  renderQueryLogResponseDetail dictionary formats record status.1 options.filterNames ++
  renderRowResponse status.2 status.1
    (queryLogResponseDetail dictionary formats record options.filterNames) ++
  renderDuration (durationText dictionary formats record) ++
  [markup "\n          </div>\n        </div>\n      </div>\n      ",
    markup "<div class=\"log-client\" role=\"cell\">\n        "]

/-- The parts of a row, of a record with a date. -/
def queryLogRow (record : QueryLogRecord ν) (options : QueryLogRenderOptions) : List Part :=
  queryLogRowStart dictionary formats record options ++
  renderClientCell dictionary record.clientIp options.clientDisplayName ++
  [markup "\n      </div>\n    </div>\n  "]

/-- The row; formatting a date that is none throws. -/
def renderQueryLogRow (record : QueryLogRecord ν) (options : QueryLogRenderOptions) :
    Except Text Text :=
  if maxDateSecond < record.timestamp then .error "Invalid time value".toList
  else .ok (print (queryLogRow dictionary formats record options))

end

end DnsBlackhole.QueryLog
