import FactoryMigration.Activity.Basic
import FactoryMigration.Report.Basic
import FactoryMigration.Schedule

set_option autoImplicit false

/-! # Reports of tasks

The parts that pipelines and jobs write alike: diagnostics, dependencies, clusters, schedules and
parameters. -/

namespace FactoryMigration

def Diagnostic.report (diagnostic : Diagnostic) : Report :=
  .record ([("property", .text diagnostic.property), ("message", .text diagnostic.message)]
    ++ Report.field? "activity_name" .text diagnostic.activityName
    ++ Report.field? "activity_type" .text diagnostic.activityType)

def Dependency.report (dependency : Dependency) : Report :=
  .record (("task_key", .text dependency.taskKey)
    :: Report.field? "outcome" .text dependency.outcome)

def Parameter.report (parameter : Parameter) : Report :=
  .record [("name", .text parameter.name), ("default", .text parameter.default)]

def Schedule.report (schedule : Schedule) : Report :=
  .record [("quartz_cron_expression", .text schedule.cron),
    ("timezone_id", .text schedule.timezone)]

namespace Cluster

/-- A place in a file system. -/
def destination (path : String) : Report :=
  .record [("destination", .text path)]

/-- The size of a cluster: bounds, a count, or nothing. -/
def sizeFields : Option Workers → List (String × Report)
  | none => []
  | some (.fixed n) => [("num_workers", .count n)]
  | some (.autoscale least greatest) =>
    [("autoscale", .record [("min_workers", .count least), ("max_workers", .count greatest)])]

/-- An init script under the store that its path belongs to. -/
def initScript (path : String) : Report :=
  .tagged (ScriptStore.ofPath path).key (destination path)

def report (cluster : Cluster) : Report :=
  .record (Report.field? "spark_version" .text cluster.sparkVersion
    ++ Report.field? "node_type_id" .text cluster.nodeType
    ++ Report.field? "driver_node_type_id" .text cluster.driverNodeType
    ++ [("custom_tags", .texts cluster.customTags)]
    ++ Report.field? "spark_conf" .values cluster.sparkConf
    ++ Report.field? "spark_env_vars" .values cluster.sparkEnvVars
    ++ Report.filledField "init_scripts" (fun paths => .list (paths.map initScript))
      cluster.initScripts
    ++ Report.field? "cluster_log_conf" (fun path => .record [("dbfs", destination path)])
      cluster.logDestination
    ++ sizeFields cluster.workers)

end Cluster

end FactoryMigration
