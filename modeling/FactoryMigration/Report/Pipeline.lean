import FactoryMigration.Pipeline
import FactoryMigration.Report.Task

set_option autoImplicit false

/-! # Reports of pipelines

The full form of a converted pipeline: every field of every activity, dataset and service. -/

namespace FactoryMigration

def StorageService.fields (service : StorageService) : List (String × Report) :=
  [("name", .text service.name), ("storage_account_name", .text service.account),
    ("url", .text service.url)]
    ++ Report.field? "account_key" .text service.accountKey

def SqlService.fields (service : SqlService) : List (String × Report) :=
  [("name", .text service.name), ("host", .orNull .text service.host),
    ("database", .orNull .text service.database), ("user_name", .orNull .text service.userName),
    ("authentication_type", .orNull .text service.authenticationType)]

def LinkedService.report : LinkedService → Report
  | .storage service => .record (("service_type", .text "abfs") :: service.fields)
  | .workspace service => .record [("service_type", .text "databricks_cluster"),
      ("name", .text service.name), ("host_name", .orNull .text service.hostName),
      ("cluster", service.cluster.report)]
  | .sqlServer service => .record (("service_type", .text "sql_server") :: service.fields)

def Dataset.report : Dataset → Report
  | .file dataset => .record [("kind", .text "file"), ("name", .text dataset.name),
      ("dataset_type", .text dataset.format.name), ("container", .text dataset.container),
      ("folder_path", .text dataset.path), ("format_options", .texts dataset.options),
      ("service", .record dataset.service.fields)]
  | .delta dataset => .record [("kind", .text "delta_table"), ("name", .text dataset.name),
      ("catalog", .orNull .text dataset.catalog), ("database", .text dataset.database),
      ("table", .text dataset.table), ("service_name", .text dataset.serviceName)]
  | .sql dataset => .record [("kind", .text "sql_table"), ("name", .text dataset.name),
      ("schema", .text dataset.schema), ("table", .text dataset.table),
      ("service", .record dataset.service.fields)]

def Side.report (side : Side) : Report :=
  .record [("dataset_type", .text side.format.name), ("options", .values side.options)]

def ColumnMapping.report (column : ColumnMapping) : Report :=
  .record [("source_column", .text column.source), ("sink_column", .text column.sink),
    ("sink_type", .orNull .text column.sinkType)]

/-- The fields of a copy. -/
def Copy.fields (copy : Copy) : List (String × Report) :=
  [("source", copy.source.report), ("sink", copy.sink.report),
    ("source_properties", copy.sourceSide.report), ("sink_properties", copy.sinkSide.report),
    ("column_mapping", .list (copy.columns.map ColumnMapping.report))]

/-- A list of JSON values. -/
def Report.jsons (values : List Json) : Report :=
  .json (.arr values)

def Work.report : Work → Report
  | .notebook path parameters => .record [("kind", .text "notebook"),
      ("notebook_path", .text path), ("base_parameters", .texts parameters)]
  | .sparkJar mainClass parameters libraries => .record [("kind", .text "spark_jar"),
      ("main_class_name", .text mainClass), ("parameters", .jsons parameters),
      ("libraries", .jsons libraries)]
  | .sparkPython file parameters => .record [("kind", .text "spark_python"),
      ("python_file", .text file), ("parameters", .jsons parameters)]
  | .copy body => .record (("kind", .text "copy") :: body.fields)
  | .placeholder reason => .record [("kind", .text "placeholder"),
      ("notebook_path", .text Work.placeholderPath), ("reason", .text reason)]

/-- The fields of a task before the payload. -/
def Task.fields (task : Task) : List (String × Report) :=
  [("name", .text task.name), ("task_key", .text task.key), ("activity_type", .text task.type),
    ("description", .orNull .text task.description),
    ("timeout_seconds", .orNull .count task.policy.timeoutSeconds),
    ("max_retries", .orNull .count task.policy.maxRetries),
    ("min_retry_interval_millis", .orNull .count task.policy.minRetryIntervalMillis),
    ("depends_on", .list (task.dependsOn.map Dependency.report)),
    ("new_cluster", .orNull Cluster.report task.cluster)]

/-- A task with its payload. -/
def Task.reportWith (task : Task) (payload : Report) : Report :=
  .record (task.fields ++ [("payload", payload)])

namespace Activity

mutual

def report : Activity → Report
  | single task work => task.reportWith work.report
  | branch task condition children =>
    task.reportWith (.record ([("kind", .text "if_condition"), ("op", .text condition.op.name),
      ("left", .text condition.left), ("right", .text condition.right)]
      ++ Report.filledField "children" .list (reports children)))
  | loop task items concurrency body =>
    task.reportWith (.record [("kind", .text "for_each"), ("items", .text items),
      ("concurrency", .orNull .count concurrency), ("activities", .list (reports body))])

/-- The reports of a list of activities. -/
def reports : List Activity → List Report
  | [] => []
  | activity :: rest => report activity :: reports rest

end

end Activity

def Pipeline.report (pipeline : Pipeline) : Report :=
  .record [("name", .text pipeline.name),
    ("parameters", .list (pipeline.parameters.map Parameter.report)),
    ("schedule", .orNull Schedule.report pipeline.schedule),
    ("tasks", .list (Activity.reports pipeline.tasks)),
    ("tags", .texts pipeline.tags),
    ("not_translatable", .list (pipeline.notTranslatable.map Diagnostic.report))]

end FactoryMigration
